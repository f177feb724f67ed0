import Mathlib.Algebra.Order.Field.Basic
import Mathlib.Algebra.BigOperators.Group.List.Basic
import Mathlib.Algebra.Order.Ring.Unbundled.Rat
import PandaProbe.Dialogue
import PandaProbe.EvalRunTask
import PandaProbe.Fallible
import PandaProbe.LlmResponse
import PandaProbe.SessionIsolation

/-! # The judges

Seven trace metrics are dialogues with a model: they extract what they need from the trace, ask
for a verdict, and turn it into a score.  `LLMEngine.generate_structured` puts each question up to
three times, each time with the response schema and then without; an answer is a completion that
parses and validates.

`judge_run` holds for every provider, whatever state it keeps and whenever it fails, if a score
that validates is in the unit interval: what comes of a metric is what its dialogue makes of the
answers alone, it is in the unit interval and stored as a SUCCESS, and a metric fails only if the
credentials are missing or one question fails six times in a row.  `argument_correctness_counts` is
the arithmetic of the one metric that counts: neutral verdicts do not matter, and nor does the
order.

Scores are numbers of an ordered field, so a NaN, which is neither below `ge` nor above `le`, is not
among them.  Of the prompts nothing is used but what they are made of.  The sampling temperature
is a constant of the provider.
-/
namespace PandaProbe

/-- `Literal["yes", "no", "neutral"]`. -/
inductive CallJudgement
  | yes | no | neutral
  deriving DecidableEq, Repr

/-- The name it has in the metadata. -/
def CallJudgement.text : CallJudgement → String
  | yes => "yes"
  | no => "no"
  | neutral => "neutral"

/-- `ArgumentCorrectnessVerdict`. -/
structure ArgumentVerdict where
  verdict : CallJudgement
  reason : Option String
  deriving DecidableEq, Repr

/-- The response schemas. -/
inductive Schema
  | taskAndOutcome | taskCompletionVerdict | toolUsageContext | toolSelectionScore
  | toolCallContext | argumentVerdicts | argumentCorrectnessReason
  | task | efficiencyVerdict | agentPlan | planAdherenceScore | planQualityScore
  | confidenceVerdict
  deriving DecidableEq, Repr

section
variable (K : Type)

/-- What a response of a schema holds. -/
def Schema.Answer : Schema → Type
  | taskAndOutcome => String × String
  | taskCompletionVerdict | confidenceVerdict => K × Option String
  | toolUsageContext => String × List Json × List Json
  | toolSelectionScore | efficiencyVerdict | planAdherenceScore | planQualityScore => K × String
  | toolCallContext => String × List Json
  | argumentVerdicts => List ArgumentVerdict
  | argumentCorrectnessReason | task => String
  | agentPlan => List String

/-- `ge=0.0, le=1.0`: the score of a response is in the unit interval. -/
def Schema.Valid [Zero K] [One K] [LE K] : (schema : Schema) → schema.Answer K → Prop
  | taskCompletionVerdict, (score, _) | confidenceVerdict, (score, _) => 0 ≤ score ∧ score ≤ 1
  | toolSelectionScore, (score, _) | efficiencyVerdict, (score, _)
  | planAdherenceScore, (score, _) | planQualityScore, (score, _) => 0 ≤ score ∧ score ≤ 1
  | taskAndOutcome, _ | toolUsageContext, _ | toolCallContext, _ | argumentVerdicts, _
  | argumentCorrectnessReason, _ | task, _ | agentPlan, _ => True

/-- A question: the prompt and the schema of the response. -/
structure Question where
  schema : Schema
  prompt : String
  deriving DecidableEq, Repr

/-- The answers to a question. -/
abbrev Question.Answer (q : Question) : Type := q.schema.Answer K

/-- What a metric is to the engine. -/
abbrev Judging (R : Type) := Dialogue Question (Question.Answer K) R

/-- The prompts, as functions of what they show. -/
structure JudgePrompts where
  extractTaskAndOutcome : Trace → String
  generateVerdict : String → String → String
  extractToolUsage : Trace → String
  scoreToolSelection : String → List Json → List Json → String
  extractToolCalls : Trace → String
  generateVerdicts : String → List Json → String
  generateReason : List String → String → K → String
  extractTaskFromTrace : Trace → String
  getExecutionEfficiency : String → Trace → String
  extractPlanFromTrace : Trace → String
  evaluateAdherence : String → List String → Trace → String
  evaluatePlanQuality : String → List String → String
  evaluateConfidence : Trace → String

end

/-- A dictionary literal. -/
def dict (l : List (String × Json)) : JsonDict := fun k => l.lookup k

namespace Judge
variable {K : Type} [Field K] [LinearOrder K] [IsStrictOrderedRing K]

/-- Ask for an answer of a schema. -/
def generate {R : Type} (schema : Schema) (prompt : String)
    (next : schema.Answer K → Judging K R) : Judging K R := .ask ⟨schema, prompt⟩ next

/-- `BaseMetric.threshold`, which no judge overrides. -/
def defaultThreshold : K := 0.5

/-- The result that a score gives, with what the metric adds to the metadata. -/
def scored (num : K → Json) (threshold : Option K) (score : K) (reason : Option String)
    (metadata : List (String × Json)) : MetricResult K :=
  let effective := threshold.getD defaultThreshold
  ⟨score, reason, dict (metadata ++
    [("threshold", num effective), ("success", .bool (effective ≤ score))])⟩

/-- The result where there is nothing to judge: a success whatever the threshold. -/
def perfect (num : K → Json) (threshold : Option K) (reason : String)
    (metadata : List (String × Json)) : MetricResult K :=
  ⟨1, some reason, dict (metadata ++
    [("threshold", num (threshold.getD defaultThreshold)), ("success", .bool true)])⟩

/-- A list of texts as a JSON array. -/
def texts (l : List String) : Json := .arr (l.map .str)

/-- What the metadata shows of a verdict. -/
def verdictJson (v : ArgumentVerdict) : Json :=
  .obj [("verdict", .str v.verdict.text), ("reason", (v.reason.map Json.str).getD .null)]

variable (prompts : JudgePrompts K) (num : K → Json) (threshold : Option K) (trace : Trace)

/-- `TaskCompletionMetric.evaluate`. -/
def taskCompletion : Judging K (MetricResult K) :=
  generate .taskAndOutcome (prompts.extractTaskAndOutcome trace) fun (task, outcome) =>
    generate .taskCompletionVerdict (prompts.generateVerdict task outcome) fun (verdict, reason) =>
      .done (scored num threshold verdict reason [("task", .str task),
        ("outcome", .str outcome)])

/-- `ToolCorrectnessMetric.evaluate`. -/
def toolCorrectness : Judging K (MetricResult K) :=
  generate .toolUsageContext (prompts.extractToolUsage trace) fun (userInput, called, available) =>
    generate .toolSelectionScore (prompts.scoreToolSelection userInput called available)
      fun (score, reason) =>
        .done (scored num threshold score (some reason) [("user_input", .str userInput),
          ("tools_called", .arr called), ("available_tools", .arr available)])

/-- The verdicts on task arguments. -/
def taskVerdicts (verdicts : List ArgumentVerdict) : List ArgumentVerdict :=
  verdicts.filter fun v => v.verdict ≠ .neutral

/-- `correct_count / len(task_verdicts)`, and `1.0` for no verdict. -/
def argumentScore (verdicts : List ArgumentVerdict) : K :=
  let judged := taskVerdicts verdicts
  let correct := (judged.filter fun v => v.verdict = .yes).length
  if judged = [] then 1 else (correct : K) / (judged.length : K)

/-- `ArgumentCorrectnessMetric.evaluate`. -/
def argumentCorrectness : Judging K (MetricResult K) :=
  generate .toolCallContext (prompts.extractToolCalls trace) fun (userInput, toolCalls) =>
    if toolCalls = [] then
      .done (perfect num threshold "No tool calls in trace; nothing to evaluate."
        [("user_input", .str userInput), ("verdicts", .arr [])])
    else
      generate .argumentVerdicts (prompts.generateVerdicts userInput toolCalls)
        fun (verdicts : List ArgumentVerdict) =>
        let score := argumentScore verdicts
        let result := fun reason => scored num threshold score (some reason)
          [("user_input", .str userInput), ("verdicts", .arr (verdicts.map verdictJson))]
        if verdicts ≠ [] ∧ taskVerdicts verdicts = [] then
          .done (result
            "Only Reflect rule and memory operations; no task-directed arguments to evaluate.")
        else
          let incorrect := (taskVerdicts verdicts).filter fun v => v.verdict = .no
          generate .argumentCorrectnessReason (prompts.generateReason
            (incorrect.map fun v => (truthy v.reason).getD "No reason provided") userInput score)
            fun reason => .done (result reason)

/-- `StepEfficiencyMetric.evaluate`. -/
def stepEfficiency : Judging K (MetricResult K) :=
  generate .task (prompts.extractTaskFromTrace trace) fun task =>
    generate .efficiencyVerdict (prompts.getExecutionEfficiency task trace) fun (score, reason) =>
      .done (scored num threshold score (some reason) [("task", .str task)])

/-- What the two plan metrics have in common: the task, the plan, and a score for the plan if
there is one. -/
def planned (schema : Schema) (prompt : String → List String → String)
    (score : schema.Answer K → K × String) : Judging K (MetricResult K) :=
  generate .task (prompts.extractTaskFromTrace trace) fun task =>
    generate .agentPlan (prompts.extractPlanFromTrace trace) fun (plan : List String) =>
      if plan = [] then
        .done (perfect num threshold "No plan found in trace"
          [("task", .str task), ("plan", .arr [])])
      else
        generate schema (prompt task plan) fun answer =>
          .done (scored num threshold (score answer).1 (some (score answer).2)
            [("task", .str task), ("plan", texts plan)])

/-- `PlanAdherenceMetric.evaluate`. -/
def planAdherence : Judging K (MetricResult K) :=
  planned prompts num threshold trace .planAdherenceScore
    (fun task plan => prompts.evaluateAdherence task plan trace) id

/-- `PlanQualityMetric.evaluate`. -/
def planQuality : Judging K (MetricResult K) :=
  planned prompts num threshold trace .planQualityScore prompts.evaluatePlanQuality id

/-- `ConfidenceMetric.evaluate`. -/
def confidence : Judging K (MetricResult K) :=
  generate .confidenceVerdict (prompts.evaluateConfidence trace) fun (verdict, reason) =>
    .done (scored num threshold verdict reason [])

end Judge

/-- The judges of the registry. -/
inductive JudgeName
  | taskCompletion | toolCorrectness | argumentCorrectness | stepEfficiency | planAdherence
  | planQuality | confidence
  deriving DecidableEq, Repr

namespace JudgeName

/-- `name`. -/
def name : JudgeName → String
  | taskCompletion => "task_completion"
  | toolCorrectness => "tool_correctness"
  | argumentCorrectness => "argument_correctness"
  | stepEfficiency => "step_efficiency"
  | planAdherence => "plan_adherence"
  | planQuality => "plan_quality"
  | confidence => "confidence"

/-- The stages of the description. -/
def stages : JudgeName → Nat
  | taskCompletion | toolCorrectness | stepEfficiency => 2
  | argumentCorrectness | planAdherence | planQuality => 3
  | confidence => 1

/-- `evaluate`. -/
def dialogue {K : Type} [Field K] [LinearOrder K] [IsStrictOrderedRing K] (prompts : JudgePrompts K)
    (num : K → Json) (threshold : Option K) (trace : Trace) :
    JudgeName → Judging K (MetricResult K)
  | taskCompletion => Judge.taskCompletion prompts num threshold trace
  | toolCorrectness => Judge.toolCorrectness prompts num threshold trace
  | argumentCorrectness => Judge.argumentCorrectness prompts num threshold trace
  | stepEfficiency => Judge.stepEfficiency prompts num threshold trace
  | planAdherence => Judge.planAdherence prompts num threshold trace
  | planQuality => Judge.planQuality prompts num threshold trace
  | confidence => Judge.confidence prompts num threshold trace

end JudgeName

/-! ## The engine -/

/-- A request to LiteLLM.  Without a response format the model answers as it likes. -/
structure Completion where
  model : String
  prompt : String
  responseFormat : Option Schema

/-- The engine, with the providers behind it and their state: `acompletion` gives the content of
a completion or the text of an exception. -/
structure JudgeEngine (K V S J : Type) extends LlmEngine V where
  llmModel : String
  acompletion : Completion → S → S × Except String String
  reader : (schema : Schema) → ResponseReader J (schema.Answer K) String

/-- `MAX_RETRIES`. -/
def maxLlmRetries : Nat := 3

namespace JudgeEngine
variable {K V S J : Type} [Field K] [LinearOrder K] [IsStrictOrderedRing K]
variable (engine : JudgeEngine K V S J) (model : Option String)

/-- The model of a call. -/
def resolvedLlm : String := resolveModelString ((truthy model).getD engine.llmModel)

/-- The message of a `ProviderNotConfiguredError`. -/
def refusesLlm : Option String :=
  (providerKeyFromModel (engine.resolvedLlm model)).bind fun p =>
    let (ok, msg) := engine.checkProviderCredentials p
    if ok then none else some msg

/-- One completion, with the response schema or without, and what is read from it. -/
def complete (q : Question) (structured : Bool) (st : S) : S × Except String (q.Answer K) :=
  match engine.acompletion ⟨engine.resolvedLlm model, q.prompt,
      if structured then some q.schema else none⟩ st with
  | (st, .error e) => (st, .error e)
  | (st, .ok raw) => (st, (engine.reader q.schema).parseResponse raw)

/-- Every response that validates is valid. -/
def Validates : Prop :=
  ∀ schema j a, (engine.reader schema).modelValidate j = .ok a → schema.Valid K a

/-- The completions of `generate_structured`: each `_call` falls back to one without a schema. -/
def schedule : List Bool := (List.replicate maxLlmRetries [true, false]).flatten

/-- The message of the `LLMEngineError`. -/
def gaveUp (lastError : String) : String :=
  "LLM call to " ++ engine.resolvedLlm model ++ " failed after " ++ toString maxLlmRetries ++
    " attempts: " ++ lastError

/-- `generate_structured`. -/
def generateStructured (q : Question) (st : S) :
    S × List (Dialogue.Request Question (Question.Answer K) Bool String) ×
      Except String (q.Answer K) :=
  Dialogue.put (engine.complete model) schedule "None" (fun _ => engine.refusesLlm model)
    (engine.gaveUp model) q st

/-- `evaluate` of a metric. -/
def evaluate {R : Type} (judging : Judging K R) (st : S) :
    S × List (Dialogue.Request Question (Question.Answer K) Bool String) × Except String R :=
  Dialogue.converse (engine.generateStructured model) judging st

end JudgeEngine

/-! ## What a judge says -/

namespace Judge
variable {K : Type} [Field K] [LinearOrder K] [IsStrictOrderedRing K]
variable {prompts : JudgePrompts K} {num : K → Json} {threshold : Option K} {trace : Trace}

/-- A score in the unit interval, and a metadata that says whether it reaches the threshold. -/
structure Fair (threshold : Option K) (result : MetricResult K) : Prop where
  nonneg : 0 ≤ result.score
  le_one : result.score ≤ 1
  success : threshold.getD defaultThreshold ≤ 1 → result.metadata "success" =
    some (.bool (threshold.getD defaultThreshold ≤ result.score))

/-- A metadata that says nothing of success itself. -/
def Plain (metadata : List (String × Json)) : Prop := metadata.lookup "success" = none

theorem success_dict {metadata : List (String × Json)} (h : Plain metadata) (t s : Json) :
    dict (metadata ++ [("threshold", t), ("success", s)]) "success" = some s := by
  rw [dict, List.lookup_append, h]
  rfl

omit [IsStrictOrderedRing K] in
theorem fair_scored {score : K} {reason : Option String} {metadata : List (String × Json)}
    (h₀ : 0 ≤ score) (h₁ : score ≤ 1) (h : Plain metadata) :
    Fair threshold (scored num threshold score reason metadata) :=
  ⟨h₀, h₁, fun _ => success_dict h _ _⟩

theorem fair_perfect {reason : String} {metadata : List (String × Json)} (h : Plain metadata) :
    Fair threshold (perfect num threshold reason metadata) := by
  refine ⟨zero_le_one, le_refl 1, fun hle => ?_⟩
  refine (success_dict h _ _).trans ?_
  simp only [perfect, hle, decide_true]

theorem length_taskVerdicts (verdicts : List ArgumentVerdict) :
    (taskVerdicts verdicts).length =
      (verdicts.map ArgumentVerdict.verdict).count .yes +
        (verdicts.map ArgumentVerdict.verdict).count .no := by
  induction verdicts with
  | nil => rfl
  | cons v l ih =>
    obtain ⟨verdict, reason⟩ := v
    cases verdict <;> simp_all [taskVerdicts] <;> omega

theorem length_correct (verdicts : List ArgumentVerdict) :
    ((taskVerdicts verdicts).filter fun v => v.verdict = .yes).length =
      (verdicts.map ArgumentVerdict.verdict).count .yes := by
  induction verdicts with
  | nil => rfl
  | cons v l ih =>
    obtain ⟨verdict, reason⟩ := v
    cases verdict <;> simp_all [taskVerdicts]

/-- The score of a list of verdicts, by how many say yes and how many say no. -/
def shareOf (yes no : Nat) : K := if yes + no = 0 then 1 else (yes : K) / ((yes + no : Nat) : K)

omit [LinearOrder K] [IsStrictOrderedRing K] in
theorem argumentScore_eq (verdicts : List ArgumentVerdict) :
    argumentScore (K := K) verdicts =
      shareOf ((verdicts.map ArgumentVerdict.verdict).count .yes)
        ((verdicts.map ArgumentVerdict.verdict).count .no) := by
  have hnil : taskVerdicts verdicts = [] ↔
      (verdicts.map ArgumentVerdict.verdict).count .yes +
        (verdicts.map ArgumentVerdict.verdict).count .no = 0 := by
    rw [← length_taskVerdicts, List.length_eq_zero_iff]
  simp only [argumentScore, shareOf, length_correct, length_taskVerdicts, hnil]

theorem shareOf_unit (yes no : Nat) : 0 ≤ shareOf (K := K) yes no ∧ shareOf (K := K) yes no ≤ 1 := by
  unfold shareOf
  split
  · exact ⟨zero_le_one, le_refl 1⟩
  next hpos =>
    have hlt : (0 : K) < ((yes + no : Nat) : K) := Nat.cast_pos.mpr (Nat.pos_of_ne_zero hpos)
    refine ⟨div_nonneg (Nat.cast_nonneg yes) hlt.le, (div_le_one hlt).mpr ?_⟩
    exact Nat.cast_le.mpr (Nat.le_add_right yes no)

theorem shareOf_eq_one_iff (yes no : Nat) : shareOf (K := K) yes no = 1 ↔ no = 0 := by
  unfold shareOf
  split
  next hzero => exact ⟨fun _ => (Nat.add_eq_zero_iff.mp hzero).2, fun _ => rfl⟩
  next hpos =>
    have hne : ((yes + no : Nat) : K) ≠ 0 := Nat.cast_ne_zero.mpr hpos
    rw [div_eq_one_iff_eq hne, Nat.cast_inj]
    omega

theorem argumentScore_unit (verdicts : List ArgumentVerdict) :
    0 ≤ argumentScore (K := K) verdicts ∧ argumentScore (K := K) verdicts ≤ 1 := by
  rw [argumentScore_eq]
  exact shareOf_unit _ _

/-- **Every judge is fair**, whatever valid answers it gets. -/
theorem ensures_fair (j : JudgeName) : (j.dialogue prompts num threshold trace).Ensures
    (fun q a => q.schema.Valid K a) (Fair threshold) := by
  have hplanned : ∀ {schema : Schema} {prompt : String → List String → String}
      {score : schema.Answer K → K × String},
      (∀ a, schema.Valid K a → 0 ≤ (score a).1 ∧ (score a).1 ≤ 1) →
      (planned prompts num threshold trace schema prompt score).Ensures
        (fun q a => q.schema.Valid K a) (Fair threshold) := by
    intro schema prompt score hscore task _ plan _
    dsimp only
    split
    · exact fair_perfect rfl
    · intro answer hanswer
      obtain ⟨h₀, h₁⟩ := hscore answer hanswer
      exact fair_scored h₀ h₁ rfl
  cases j with
  | taskCompletion => exact fun _ _ verdict hverdict => fair_scored hverdict.1 hverdict.2 rfl
  | toolCorrectness => exact fun _ _ score hscore => fair_scored hscore.1 hscore.2 rfl
  | argumentCorrectness =>
    rintro ⟨userInput, toolCalls⟩ -
    dsimp only
    split
    · exact fair_perfect rfl
    · intro verdicts _
      obtain ⟨h₀, h₁⟩ := argumentScore_unit (K := K) verdicts
      dsimp only
      split
      · exact fair_scored h₀ h₁ rfl
      · exact fun _ _ => fair_scored h₀ h₁ rfl
  | stepEfficiency => exact fun _ _ score hscore => fair_scored hscore.1 hscore.2 rfl
  | planAdherence => exact hplanned fun _ h => h
  | planQuality => exact hplanned fun _ h => h
  | confidence => exact fun verdict hverdict => fair_scored hverdict.1 hverdict.2 rfl

/-- A judge asks a question for each of its stages at most. -/
theorem atMost_stages (j : JudgeName) : (j.dialogue prompts num threshold trace).AtMost j.stages := by
  have hplanned : ∀ {schema : Schema} {prompt : String → List String → String}
      {score : schema.Answer K → K × String},
      (planned prompts num threshold trace schema prompt score).AtMost 3 := by
    intro schema prompt score task plan
    dsimp only
    split
    · trivial
    · exact fun _ => trivial
  cases j with
  | taskCompletion => exact fun _ _ => trivial
  | toolCorrectness => exact fun _ _ => trivial
  | argumentCorrectness =>
    rintro ⟨userInput, toolCalls⟩
    dsimp only
    split
    · trivial
    · intro verdicts
      dsimp only
      split
      · trivial
      · exact fun _ => trivial
  | stepEfficiency => exact fun _ _ => trivial
  | planAdherence => exact hplanned
  | planQuality => exact hplanned
  | confidence => exact fun _ => trivial

/-- Every judge begins with a question. -/
theorem asks_first (j : JudgeName) :
    ∃ q next, j.dialogue prompts num threshold trace = .ask q next := by
  cases j <;> exact ⟨_, _, rfl⟩

end Judge

section
open Dialogue
variable {K V S J : Type} [Field K] [LinearOrder K] [IsStrictOrderedRing K]
variable {engine : JudgeEngine K V S J} {prompts : JudgePrompts K} {num : K → Json}
variable {threshold : Option K} {trace : Trace} {model : Option String} {st st' : S}
variable {log : List (Request Question (Question.Answer K) Bool String)}

omit [Field K] [LinearOrder K] [IsStrictOrderedRing K] in
/-- The run of a judge is a transcript of its dialogue, with six completions for a question. -/
theorem evaluate_transcript {R : Type} {judging : Judging K R} {r : Except String R}
    {V : (q : Question) → q.Answer K → Prop}
    (hvalid : ∀ q structured st a, (engine.complete model q structured st).2 = .ok a → V q a)
    (hrun : engine.evaluate model judging st = (st', log, r)) :
    Transcript 6 (fun _ => engine.refusesLlm model) (engine.gaveUp model) V judging log r := by
  have h := converse_transcript hvalid JudgeEngine.schedule "None"
    (fun _ => engine.refusesLlm model) (engine.gaveUp model) judging st
  rw [JudgeEngine.evaluate] at hrun
  change Transcript 6 _ _ _ _ (converse (engine.generateStructured model) judging st).2.1
    (converse (engine.generateStructured model) judging st).2.2 at h
  rwa [hrun] at h

omit [IsStrictOrderedRing K] in
/-- What is read from a completion is valid. -/
theorem complete_valid (hvalid : engine.Validates) (q : Question) (structured : Bool) (st : S)
    (a : q.Answer K) (h : (engine.complete model q structured st).2 = .ok a) :
    q.schema.Valid K a := by
  unfold JudgeEngine.complete at h
  split at h
  · cases h
  next raw _ =>
    dsimp only at h
    unfold ResponseReader.parseResponse at h
    split at h
    · cases h
    · obtain ⟨j, -, hj⟩ := Fallible.bind_ok h
      exact hvalid q.schema j a hj

/-- **What a judge comes to**, whatever the provider does, if a score that validates is in the unit
interval.  It requests six completions for each of its stages at most.  A result is what the
dialogue makes of the answers, as if no request had failed; its score is in the unit interval, and
its metadata says whether it reaches the threshold, if that is at most 1.  An error is a refusal
before any request, or six failures in a row of one question.  And an eval run stores a SUCCESS
exactly for the results. -/
theorem judge_run (hvalid : engine.Validates) (j : JudgeName) {r : Except String (MetricResult K)}
    (hrun : engine.evaluate model (j.dialogue prompts num threshold trace) st = (st', log, r)) :
    log.length ≤ 6 * j.stages ∧
      (∀ result, r = .ok result →
        (j.dialogue prompts num threshold trace).play (answersOf log) = some result ∧
          Judge.Fair threshold result) ∧
      (∀ e, r = .error e → (engine.refusesLlm model = some e ∧ log = []) ∨
        ∃ before failures q, log = before ++ failures ∧ failures.length = 6 ∧
          ∀ x ∈ failures, x.question = q ∧ x.Fails) ∧
      ∀ env : EvalEnv K, (∀ x, 0 ≤ x → x ≤ 1 → validateScoreValue env (env.render x) .numeric) →
        ∀ task name tick, (TraceEval.outcome env task (fun _ _ => r) model trace name
          tick).1.status = .success ↔ ∃ result, r = .ok result := by
  have h := evaluate_transcript (complete_valid hvalid) hrun
  refine ⟨h.length_le (Judge.atMost_stages j), fun result hr => ?_, fun e hr => ?_,
    fun env hrender task name tick => ?_⟩
  · subst hr
    exact ⟨h.play_eq, h.result (Judge.ensures_fair j)⟩
  · subst hr
    rcases h.failed with ⟨q, hrefused⟩ | ⟨before, failures, q, e', hlog, hlength, hfails, -⟩
    · -- the credentials are checked before the first request
      obtain ⟨q, next, hasks⟩ : ∃ q next, j.dialogue prompts num threshold trace = .ask q next :=
        Judge.asks_first j
      rw [hasks, JudgeEngine.evaluate, converse, JudgeEngine.generateStructured, put] at hrun
      simp only [hrefused] at hrun
      cases hrun
      exact .inl ⟨hrefused, rfl⟩
    · exact .inr ⟨before, failures, q, hlog, hlength, hfails⟩
  · cases r with
    | error e =>
      simp [TraceEval.outcome, TraceEval.failedScore, TraceEval.metricScore]
    | ok result =>
      have hfair : Judge.Fair threshold result := h.result (Judge.ensures_fair j)
      simp [TraceEval.outcome, TraceEval.metricScore, hrender _ hfair.nonneg hfair.le_one]

omit [IsStrictOrderedRing K] in
/-- The score of `argument_correctness`, if it has got as far as the verdicts. -/
theorem score_of_play {p p' userInput : String} {toolCalls : List Json}
    {verdicts : List ArgumentVerdict} {rest : List ((q : Question) × q.Answer K)}
    {result : MetricResult K}
    (h : (Judge.argumentCorrectness prompts num threshold trace).play
      (⟨⟨.toolCallContext, p⟩, (userInput, toolCalls)⟩ :: ⟨⟨.argumentVerdicts, p'⟩, verdicts⟩ ::
        rest) = some result) : result.score = Judge.argumentScore verdicts := by
  obtain ⟨hq, h⟩ := play_ask h
  cases hq
  dsimp only at h
  split at h
  · cases h
  · obtain ⟨hq, h⟩ := play_ask h
    cases hq
    dsimp only at h
    split at h
    · rw [← play_done h]
      rfl
    · cases rest with
      | nil => cases h
      | cons a rest =>
        obtain ⟨q, reason⟩ := a
        obtain ⟨hq, h⟩ := play_ask h
        cases hq
        rw [← play_done h]
        rfl

/-- Prompts that only say what is asked for. -/
def samplePrompts : JudgePrompts ℚ :=
  ⟨fun _ => "outcome", fun _ _ => "completion", fun _ => "tools", fun _ _ _ => "selection",
    fun _ => "calls", fun _ _ => "verdicts", fun _ _ _ => "reason", fun _ => "task",
    fun _ _ => "efficiency", fun _ => "plan", fun _ _ _ => "adherence", fun _ _ => "quality",
    fun _ => "confidence"⟩

/-- A model without a JSON mode that echoes its prompt, and a reader for which `verdicts` are
these. -/
def sampleJudge (verdicts : List ArgumentVerdict) : JudgeEngine ℚ Unit Nat String where
  credential _ := "key"
  embeddingModel := "embed"
  cacheSize := 0
  sha256 text := text
  embedding _ _ := ()
  llmModel := "local"
  acompletion request n := (n + 1,
    if request.responseFormat.isSome then .error "json_schema is not supported"
    else .ok request.prompt)
  reader schema :=
    { loads := .ok
      modelValidate := fun text =>
        match schema with
        | .confidenceVerdict => .ok ((1 : ℚ), none)
        | .toolCallContext => .ok ("book a flight", [.str "search", .str "reserve"])
        | .argumentVerdicts => .ok verdicts
        | .argumentCorrectnessReason => .ok text
        | _ => .error "ValidationError"
      indexError := "IndexError" }

/-- The second completion is read. -/
theorem judge_run_without_schema : ∃ log result,
    (sampleJudge []).evaluate none (JudgeName.confidence.dialogue samplePrompts
        (fun _ => .null) none SessionEval.sampleTrace) 0 = (2, log, .ok result) ∧
      log.length ≤ 6 ∧ Judge.Fair none result ∧
      (TraceEval.outcome SessionEval.sampleEnv ⟨"run", "A", ["t"], none⟩
        (fun _ _ => .ok result) none SessionEval.sampleTrace "confidence" 0).1.status =
          .success := by
  obtain ⟨log, result, hrun⟩ : ∃ log result,
      (sampleJudge []).evaluate none (JudgeName.confidence.dialogue samplePrompts
        (fun _ => .null) none SessionEval.sampleTrace) 0 = (2, log, .ok result) :=
    ⟨_, _, rfl⟩
  have hvalid : (sampleJudge []).Validates := by
    intro schema j a h
    cases schema <;> cases h <;> trivial
  obtain ⟨hlength, hok, -, hstored⟩ := judge_run hvalid .confidence hrun
  refine ⟨log, result, hrun, hlength, (hok result rfl).2, ?_⟩
  refine (hstored SessionEval.sampleEnv (fun x _ _ => ?_) _ _ _).mpr ⟨result, rfl⟩
  by_cases hx : x = 1 <;> simp [validateScoreValue, SessionEval.sampleEnv, hx]

/-- **Neutral verdicts neither improve nor reduce a score.**  The score is the share of the yeses
among the yeses and noes; two evaluations, with any engines on any traces, whose verdicts are the
same up to their order and the neutral ones, have the same score; and it is perfect if and only
if no verdict is a no. -/
theorem argument_correctness_counts {engine' : JudgeEngine K V S J} {prompts' : JudgePrompts K}
    {threshold' : Option K} {trace' : Trace} {model' : Option String} {st₂ st₂' : S}
    {log' : List (Request Question (Question.Answer K) Bool String)} {result result' : MetricResult K}
    (hrun : engine.evaluate model (JudgeName.argumentCorrectness.dialogue prompts num threshold
      trace) st = (st', log, .ok result))
    (hrun' : engine'.evaluate model' (JudgeName.argumentCorrectness.dialogue prompts' num threshold'
      trace') st₂ = (st₂', log', .ok result'))
    {p p' q q' userInput userInput' : String} {toolCalls toolCalls' : List Json}
    {verdicts verdicts' : List ArgumentVerdict} {rest rest' : List ((q : Question) × q.Answer K)}
    (hlog : answersOf log = ⟨⟨.toolCallContext, p⟩, (userInput, toolCalls)⟩ ::
      ⟨⟨.argumentVerdicts, p'⟩, verdicts⟩ :: rest)
    (hlog' : answersOf log' = ⟨⟨.toolCallContext, q⟩, (userInput', toolCalls')⟩ ::
      ⟨⟨.argumentVerdicts, q'⟩, verdicts'⟩ :: rest')
    (hsame : ((Judge.taskVerdicts verdicts).map ArgumentVerdict.verdict).Perm
      ((Judge.taskVerdicts verdicts').map ArgumentVerdict.verdict)) :
    result.score = Judge.shareOf ((verdicts.map ArgumentVerdict.verdict).count .yes)
        ((verdicts.map ArgumentVerdict.verdict).count .no) ∧
      result.score = result'.score ∧
      (result.score = 1 ↔ .no ∉ verdicts.map ArgumentVerdict.verdict) := by
  have htranscript : Transcript 6 _ _ (fun _ _ => True) _ log (.ok result) :=
    evaluate_transcript (fun _ _ _ _ _ => trivial) hrun
  have htranscript' : Transcript 6 _ _ (fun _ _ => True) _ log' (.ok result') :=
    evaluate_transcript (fun _ _ _ _ _ => trivial) hrun'
  have hplay := htranscript.play_eq
  have hplay' := htranscript'.play_eq
  rw [hlog] at hplay
  rw [hlog'] at hplay'
  have hscore := score_of_play hplay
  have hscore' := score_of_play hplay'
  rw [Judge.argumentScore_eq] at hscore hscore'
  refine ⟨hscore, ?_, ?_⟩
  · have hcount : ∀ v : CallJudgement, v ≠ .neutral → ∀ l : List ArgumentVerdict,
        (l.map ArgumentVerdict.verdict).count v =
          ((Judge.taskVerdicts l).map ArgumentVerdict.verdict).count v := by
      intro v hv l
      induction l with
      | nil => rfl
      | cons x l ih =>
        by_cases hx : x.verdict = .neutral
        · have hne : x.verdict ≠ v := fun h => hv (h.symm.trans hx)
          simp only [Judge.taskVerdicts, List.map_cons, List.count_cons] at ih ⊢
          simp [hx, ih, Ne.symm hv]
        · simp only [Judge.taskVerdicts, List.map_cons, List.count_cons] at ih ⊢
          simp [hx, ih, List.count_cons]
    have hyes : CallJudgement.yes ≠ .neutral := by decide
    have hno : CallJudgement.no ≠ .neutral := by decide
    rw [hscore, hscore', hcount _ hyes verdicts, hcount _ hno verdicts, hcount _ hyes verdicts',
      hcount _ hno verdicts', hsame.count_eq, hsame.count_eq]
  · rw [hscore, Judge.shareOf_eq_one_iff, List.count_eq_zero]

/-- What the model answers. -/
def sampleAnswers (verdicts : List ArgumentVerdict) : List ((q : Question) × q.Answer ℚ) :=
  [⟨⟨.toolCallContext, "calls"⟩, ("book a flight", [Json.str "search", Json.str "reserve"])⟩,
    ⟨⟨.argumentVerdicts, "verdicts"⟩, verdicts⟩,
    ⟨⟨.argumentCorrectnessReason, "reason"⟩, ("reason" : String)⟩]

/-- The evaluation of its arguments. -/
def sampleArguments (verdicts : List ArgumentVerdict) :=
  (sampleJudge verdicts).evaluate none (JudgeName.argumentCorrectness.dialogue samplePrompts
    (fun _ => .null) none SessionEval.sampleTrace) 0

/-- A yes, a neutral verdict and a no are worth as much as a no and a yes. -/
theorem argument_correctness_counts_neutral : ∃ log log' result result',
    sampleArguments [⟨.yes, none⟩, ⟨.neutral, none⟩, ⟨.no, none⟩] = (6, log, .ok result) ∧
      sampleArguments [⟨.no, some "wrong date"⟩, ⟨.yes, none⟩] = (6, log', .ok result') ∧
      result.score = Judge.shareOf 1 1 ∧ result.score = result'.score ∧ result.score ≠ 1 := by
  obtain ⟨log, result, hlog, hrun⟩ : ∃ log result,
      answersOf log = sampleAnswers [⟨.yes, none⟩, ⟨.neutral, none⟩, ⟨.no, none⟩] ∧
        sampleArguments [⟨.yes, none⟩, ⟨.neutral, none⟩, ⟨.no, none⟩] = (6, log, .ok result) :=
    ⟨_, _, rfl, rfl⟩
  obtain ⟨log', result', hlog', hrun'⟩ : ∃ log result,
      answersOf log = sampleAnswers [⟨.no, some "wrong date"⟩, ⟨.yes, none⟩] ∧
        sampleArguments [⟨.no, some "wrong date"⟩, ⟨.yes, none⟩] = (6, log, .ok result) :=
    ⟨_, _, rfl, rfl⟩
  obtain ⟨hshare, hscore, hperfect⟩ :=
    argument_correctness_counts hrun hrun' hlog hlog' (by decide)
  exact ⟨log, log', result, result', hrun, hrun', hshare, hscore,
    fun h => hperfect.mp h (by decide)⟩

end
end PandaProbe
