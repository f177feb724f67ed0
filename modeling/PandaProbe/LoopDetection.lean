import Mathlib.Algebra.Order.Ring.Rat
import PandaProbe.TraceStore

/-! # Loop detection

`LoopDetectionMetric.evaluate` compares the output of a trace with those of the last three traces
before it in the session.  Empty outputs are dropped, and the position of a compared trace is
computed afterwards from how many are left, as if they were the last ones of the session.

`comparisons_named_iff` is the main result: the positions are right exactly if, among the last
three traces, no empty output comes after one that is not empty.

Embeddings, the cosine distance and the arithmetic of doubles are parameters (`LoopEnv`).
-/
namespace PandaProbe

/-- `_STOP_WORDS`. -/
def stopWords : List String :=
  ["a", "an", "the", "is", "are", "was", "were", "be", "been", "being", "have", "has", "had", "do",
    "does", "did", "will", "would", "shall", "should", "may", "might", "can", "could", "of", "in",
    "to", "for", "on", "with", "at", "by", "from", "as", "into", "through", "during", "before",
    "after", "above", "below", "and", "but", "or", "nor", "not", "so", "yet", "both", "either",
    "neither", "each", "every", "all", "any", "few", "more", "most", "other", "some", "such", "no",
    "only", "own", "same", "than", "too", "very", "it", "its"]

/-- `DEFAULT_WINDOW`. -/
def defaultWindow : Nat := 3

/-- What the metric uses: `json.dumps`, the words of a text in lower case, the engine, and the
arithmetic of doubles.  `none` is an exception. -/
structure LoopEnv (F V : Type) where
  dumps : Json → String
  words : String → List String
  embedTexts : List String → Option (List V)
  cosineDistance : V → V → Option F
  ratio : Nat → Nat → F
  round4 : F → F
  format4 : F → String
  /-- `LoopDetectionMetric.threshold`. -/
  threshold : F

/-- An entry of the comparisons. -/
structure LoopComparison (F : Type) where
  traceIndex : Nat
  cosineSimilarity : F
  jaccardSimilarity : F
  hybridScore : F
  deriving DecidableEq, Repr

/-- The metadata of a result. -/
inductive LoopMetadata (F : Type)
  | note (text : String)
  | compared (windowSize : Nat) (maxHybrid : F) (comparisons : List (LoopComparison F))
      (threshold : F) (success : Bool)

/-- What `evaluate` returns. -/
structure LoopResult (F : Type) where
  score : F
  reason : String
  metadata : LoopMetadata F

/-- The comparisons of a result. -/
def LoopResult.comparisons {F : Type} (result : LoopResult F) : List (LoopComparison F) :=
  match result.metadata with
  | .note _ => []
  | .compared _ _ comparisons _ _ => comparisons

namespace LoopEnv
variable {F V : Type} (env : LoopEnv F V)

/-- `to_text`. -/
def toText : Json → String
  | .null => ""
  | .str s => s
  | value => env.dumps value

/-- `_tokenize`: the set of the words that are longer than a character and no stop words. -/
def tokenize (text : String) : List String :=
  ((env.words text).filter (fun t => t ∉ stopWords ∧ 1 < t.length)).dedup

section
variable [Zero F] [One F] [Sub F] [Mul F] [Max F] [Min F] [LE F] [DecidableLE F] [DecidableEq F]

/-- `_jaccard`. -/
def jaccard (a b : List String) : F :=
  if a = [] ∧ b = [] then 0
  else
    let intersection := (a.filter (· ∈ b)).length
    let union := (a ++ b).dedup.length
    if union = 0 then 0 else env.ratio intersection union

/-- The similarities of the current output to a previous one: cosine, Jaccard and hybrid. -/
def similarity (current : V) (currentTokens : List String) (prevText : String) (prev : V) :
    Option (F × F × F) := do
  let distance ← env.cosineDistance current prev
  let cosSim := 1 - distance
  let jacSim := env.jaccard currentTokens (env.tokenize prevText)
  pure (cosSim, jacSim, cosSim * jacSim)

/-- The loop over the previous texts from the `i`-th on, with what it has gathered. -/
def compareLoop (base : Nat) (current : V) (currentTokens : List String) (embeddings : List V) :
    Nat → List String → F → List (LoopComparison F) → Option (F × List (LoopComparison F))
  | _, [], maxHybrid, comparisons => some (maxHybrid, comparisons)
  | i, prevText :: rest, maxHybrid, comparisons => do
    let prev ← embeddings[i + 1]?
    let (cosSim, jacSim, hybrid) ← env.similarity current currentTokens prevText prev
    compareLoop base current currentTokens embeddings (i + 1) rest (max maxHybrid hybrid)
      (comparisons ++ [⟨base + i, env.round4 cosSim, env.round4 jacSim, env.round4 hybrid⟩])

/-- `evaluate`. -/
def evaluate (trace : Trace) (threshold : Option F) (sessionTraces : List Trace) :
    Option (LoopResult F) :=
  if sessionTraces = [] then
    some ⟨1, "No session context provided; looping cannot be assessed.",
      .note "no session context provided"⟩
  else
    let window := sessionTraces.drop (sessionTraces.length - defaultWindow)
    let currentText := env.toText trace.output
    if currentText = "" then
      some ⟨1, "Empty output; looping cannot be assessed.", .note "empty_output"⟩
    else
      let prevTexts := (window.map (fun t => env.toText t.output)).filter (· ≠ "")
      if prevTexts = [] then
        some ⟨1, "No previous outputs to compare.", .note "no_previous_outputs"⟩
      else do
        let embeddings ← env.embedTexts (currentText :: prevTexts)
        let current ← embeddings[0]?
        let (maxHybrid, comparisons) ← env.compareLoop (sessionTraces.length - prevTexts.length)
          current (env.tokenize currentText) embeddings 0 prevTexts 0 []
        let score := env.round4 (max 0 (min 1 (1 - maxHybrid)))
        let limit := match threshold with
          | some t => if t = 0 then env.threshold else t
          | none => env.threshold
        pure ⟨score, "Max hybrid repetition score: " ++ env.format4 maxHybrid,
          .compared prevTexts.length (env.round4 maxHybrid) comparisons limit (limit ≤ score)⟩

end

/-! ## The property and the condition -/

/-- The traces whose outputs are compared, with their positions in the session. -/
def comparedTraces (sessionTraces : List Trace) : List (Trace × Nat) :=
  let start := sessionTraces.length - defaultWindow
  ((sessionTraces.drop start).zipIdx start).filter (fun x => env.toText x.1.output ≠ "")

/-- Among the last three traces, an output that is not empty is followed by no empty one. -/
def NoGap (sessionTraces : List Trace) : Prop :=
  (sessionTraces.drop (sessionTraces.length - defaultWindow)).Pairwise
    (fun t t' => env.toText t.output ≠ "" → env.toText t'.output ≠ "")

/-! ## Positions -/

section
variable {α : Type} (p : α → Bool)

theorem map_eq_map_iff_forall₂ {β γ : Type} {f : α → γ} {g : β → γ} {l : List α} {l' : List β} :
    l.map f = l'.map g ↔ List.Forall₂ (fun a b => f a = g b) l l' := by
  have hforall : List.Forall₂ (· = ·) (l.map f) (l'.map g) ↔ l.map f = l'.map g := by
    rw [List.forall₂_eq_eq_eq]
  rw [← hforall, List.forall₂_map_left_iff, List.forall₂_map_right_iff]

theorem map_fst_filter_zipIdx (l : List α) (k : Nat) :
    ((l.zipIdx k).filter (fun x => p x.1)).map Prod.fst = l.filter p := by
  induction l generalizing k with
  | nil => rfl
  | cons x l ih =>
    rw [List.zipIdx_cons, List.filter_cons, List.filter_cons]
    cases p x with
    | true => simp [ih]
    | false => simp [ih]

/-- **What is left of a list keeps consecutive positions at its end** exactly if nothing is
dropped after something that is kept. -/
theorem positions_eq_range'_iff (l : List α) (k : Nat) :
    ((l.zipIdx k).filter (fun x => p x.1)).map Prod.snd =
        List.range' (k + l.length - (l.filter p).length) (l.filter p).length ↔
      l.Pairwise (fun a b => p a = true → p b = true) := by
  induction l generalizing k with
  | nil => simp
  | cons x l ih =>
    have hle : (l.filter p).length ≤ l.length := List.length_filter_le p l
    rw [List.zipIdx_cons, List.pairwise_cons, ← ih (k + 1)]
    cases hx : p x with
    | false =>
      have hstart : k + (l.length + 1) - (l.filter p).length =
          k + 1 + l.length - (l.filter p).length := by omega
      simp [hx, hstart]
    | true =>
      simp only [List.filter_cons, hx, if_true, List.map_cons, List.length_cons, List.range'_succ,
        List.cons.injEq, forall_const]
      have hhead : k = k + (l.length + 1) - ((l.filter p).length + 1) ↔ ∀ b ∈ l, p b = true := by
        rw [← List.length_filter_eq_length_iff]
        omega
      rw [hhead]
      refine and_congr_right fun hall => ?_
      have hlen : (l.filter p).length = l.length := List.length_filter_eq_length_iff.mpr hall
      have hstart : k + (l.length + 1) - (l.length + 1) + 1 = k + 1 + l.length - l.length := by omega
      rw [hlen, hstart]

end

variable {env} {sessionTraces : List Trace}

/-- The texts that are compared. -/
theorem texts_comparedTraces (env : LoopEnv F V) (sessionTraces : List Trace) :
    (env.comparedTraces sessionTraces).map (fun x => env.toText x.1.output) =
      ((sessionTraces.drop (sessionTraces.length - defaultWindow)).map
        (fun t => env.toText t.output)).filter (· ≠ "") := by
  have hfst := map_fst_filter_zipIdx (fun t : Trace => decide (env.toText t.output ≠ ""))
    (sessionTraces.drop (sessionTraces.length - defaultWindow))
    (sessionTraces.length - defaultWindow)
  have hmap := congrArg (List.map fun t : Trace => env.toText t.output) hfst
  rw [List.map_map] at hmap
  rw [List.filter_map]
  exact hmap

/-- The positions are consecutive and end with the session, or there is a gap. -/
theorem positions_comparedTraces :
    (env.comparedTraces sessionTraces).map Prod.snd =
        List.range' (sessionTraces.length - (env.comparedTraces sessionTraces).length)
          (env.comparedTraces sessionTraces).length ↔ env.NoGap sessionTraces := by
  have hpositions := positions_eq_range'_iff (fun t : Trace => decide (env.toText t.output ≠ ""))
    (sessionTraces.drop (sessionTraces.length - defaultWindow))
    (sessionTraces.length - defaultWindow)
  have hlength := congrArg List.length
    (map_fst_filter_zipIdx (fun t : Trace => decide (env.toText t.output ≠ ""))
      (sessionTraces.drop (sessionTraces.length - defaultWindow))
      (sessionTraces.length - defaultWindow))
  rw [List.length_map] at hlength
  have hstart : sessionTraces.length - defaultWindow +
      (sessionTraces.drop (sessionTraces.length - defaultWindow)).length =
        sessionTraces.length := by
    rw [List.length_drop]
    omega
  rw [← hlength, hstart] at hpositions
  simp only [decide_eq_true_eq] at hpositions
  exact hpositions

/-! ## The loop -/

section
variable (env)
variable [Zero F] [One F] [Sub F] [Mul F] [Max F] [Min F] [LE F] [DecidableLE F] [DecidableEq F]

/-- The entry compares the output of the current trace with this text. -/
def Compares (trace : Trace) (text : String) (c : LoopComparison F) : Prop :=
  ∃ current prev cosSim jacSim hybrid,
    env.similarity current (env.tokenize (env.toText trace.output)) text prev =
        some (cosSim, jacSim, hybrid) ∧
      c.cosineSimilarity = env.round4 cosSim ∧ c.jaccardSimilarity = env.round4 jacSim ∧
      c.hybridScore = env.round4 hybrid

/-- **Each comparison names the trace it compares**: there is one for each compared trace, with
its position. -/
def Named (trace : Trace) (sessionTraces : List Trace) (result : LoopResult F) : Prop :=
  List.Forall₂ (fun c x => c.traceIndex = x.2 ∧ env.Compares trace (env.toText x.1.output) c)
    result.comparisons (env.comparedTraces sessionTraces)

variable {env} {trace : Trace}

omit [Min F] [LE F] [DecidableLE F] [DecidableEq F] in
/-- **What the loop gathers**: one entry for each text, and positions that follow each other. -/
theorem compareLoop_spec {base : Nat} {current : V} {embeddings : List V} {i : Nat}
    {texts : List String} {maxHybrid : F} {comparisons : List (LoopComparison F)}
    {result : F × List (LoopComparison F)}
    (h : env.compareLoop base current (env.tokenize (env.toText trace.output)) embeddings i texts
      maxHybrid comparisons = some result) :
    ∃ entries, result.2 = comparisons ++ entries ∧
      List.Forall₂ (fun c text => env.Compares trace text c) entries texts ∧
      entries.map LoopComparison.traceIndex = List.range' (base + i) texts.length := by
  induction texts generalizing i maxHybrid comparisons with
  | nil =>
    cases h
    exact ⟨[], (List.append_nil _).symm, .nil, rfl⟩
  | cons text texts ih =>
    simp only [compareLoop, Option.bind_eq_bind, Option.bind_eq_some_iff] at h
    obtain ⟨prev, -, ⟨cosSim, jacSim, hybrid⟩, hsimilar, hrest⟩ := h
    obtain ⟨entries, hresult, hcompares, hpositions⟩ := ih hrest
    refine ⟨_, hresult.trans (List.append_assoc ..), .cons ?_ hcompares, ?_⟩
    · exact ⟨current, prev, cosSim, jacSim, hybrid, hsimilar, rfl, rfl, rfl⟩
    · rw [List.singleton_append, List.map_cons, hpositions, List.length_cons, List.range'_succ]
      rfl

/-- **What `evaluate` compares**: the traces of the window with an output, in order, and counted
from the end of the session. -/
theorem evaluate_comparisons {threshold : Option F} {result : LoopResult F}
    (hcurrent : env.toText trace.output ≠ "")
    (h : env.evaluate trace threshold sessionTraces = some result) :
    List.Forall₂ (fun c x => env.Compares trace (env.toText x.1.output) c) result.comparisons
        (env.comparedTraces sessionTraces) ∧
      result.comparisons.map LoopComparison.traceIndex =
        List.range' (sessionTraces.length - (env.comparedTraces sessionTraces).length)
          (env.comparedTraces sessionTraces).length := by
  have htexts := texts_comparedTraces env sessionTraces
  have hlength := congrArg List.length htexts
  rw [List.length_map] at hlength
  have hnone (hnil : env.comparedTraces sessionTraces = []) (hcomparisons : result.comparisons = []) :
      List.Forall₂ (fun c x => env.Compares trace (env.toText x.1.output) c) result.comparisons
          (env.comparedTraces sessionTraces) ∧
        result.comparisons.map LoopComparison.traceIndex =
          List.range' (sessionTraces.length - (env.comparedTraces sessionTraces).length)
            (env.comparedTraces sessionTraces).length := by
    rw [hnil, hcomparisons]
    exact ⟨.nil, rfl⟩
  unfold evaluate at h
  split at h
  next hempty =>
    cases h
    exact hnone (by rw [hempty]; rfl) rfl
  · simp only [hcurrent, if_false] at h
    split at h
    next hno =>
      cases h
      exact hnone (List.map_eq_nil_iff.mp (htexts.trans hno)) rfl
    · simp only [Option.bind_eq_bind, Option.bind_eq_some_iff] at h
      obtain ⟨embeddings, -, current, -, ⟨maxHybrid, comparisons⟩, hloop, hresult⟩ := h
      obtain ⟨entries, hentries, hcompares, hpositions⟩ := compareLoop_spec hloop
      have hcomparisons : result.comparisons = entries := by
        cases hresult
        exact hentries
      rw [hcomparisons]
      refine ⟨?_, ?_⟩
      · rw [← htexts, List.forall₂_map_right_iff] at hcompares
        exact hcompares
      · rw [hpositions, ← hlength, Nat.add_zero]

/-- **The comparisons name the right traces** exactly if, among the last three traces of the
session, no empty output follows one that is not empty.  For every session, every current output
that is not empty, and whatever the engine answers. -/
theorem comparisons_named_iff {threshold : Option F} {result : LoopResult F}
    (hcurrent : env.toText trace.output ≠ "")
    (h : env.evaluate trace threshold sessionTraces = some result) :
    env.Named trace sessionTraces result ↔ env.NoGap sessionTraces := by
  obtain ⟨hcompares, hpositions⟩ := evaluate_comparisons hcurrent h
  rw [← positions_comparedTraces, ← hpositions, eq_comm, map_eq_map_iff_forall₂]
  exact ⟨fun hnamed => hnamed.imp fun _ _ hc => hc.1,
    fun hindex => hindex.mp (fun _ _ hi hc => ⟨hi, hc⟩) hcompares⟩

end

/-- A trace with this output. -/
def sampleTrace (output : Json) : Trace where
  traceId := "trace"
  projectId := "project"
  name := "run"
  status := .completed
  input := .null
  output := output
  metadata := fun _ => none
  startedAt := 0
  endedAt := none
  sessionId := some "session"
  userId := none
  tags := []
  environment := none
  release := none
  spans := []

/-- An engine that finds all texts alike, and texts of one word. -/
def sampleLoop : LoopEnv ℚ ℚ where
  dumps _ := "null"
  words text := [text]
  embedTexts texts := some (texts.map fun _ => 1)
  cosineDistance _ _ := some 0
  ratio n d := n / d
  round4 x := x
  format4 _ := "1.0000"
  threshold := 1 / 2

/-- The empty outputs come first, and the one comparison names the third trace. -/
theorem comparisons_named_iff_last : ∃ result,
    sampleLoop.evaluate (sampleTrace (.str "again")) none
        [sampleTrace .null, sampleTrace (.str ""), sampleTrace (.str "again")] = some result ∧
      result.comparisons.map LoopComparison.traceIndex = [2] ∧
      sampleLoop.Named (sampleTrace (.str "again"))
        [sampleTrace .null, sampleTrace (.str ""), sampleTrace (.str "again")] result := by
  have hrun : (sampleLoop.evaluate (sampleTrace (.str "again")) none
      [sampleTrace .null, sampleTrace (.str ""), sampleTrace (.str "again")]).map
        (fun result => result.comparisons.map LoopComparison.traceIndex) = some [2] := by
    decide +kernel
  obtain ⟨result, hresult, hindex⟩ := Option.map_eq_some_iff.mp hrun
  refine ⟨result, hresult, hindex, (comparisons_named_iff (by decide) hresult).mpr ?_⟩
  show List.Pairwise _ [sampleTrace .null, sampleTrace (.str ""), sampleTrace (.str "again")]
  simp [sampleTrace, toText]

/-- The last trace has no output, and the comparison with the one before names the last. -/
theorem comparison_misnamed : ¬ ∀ (trace : Trace) (threshold : Option ℚ)
    (sessionTraces : List Trace) (result : LoopResult ℚ),
    sampleLoop.toText trace.output ≠ "" →
      sampleLoop.evaluate trace threshold sessionTraces = some result →
        sampleLoop.Named trace sessionTraces result := by
  intro h
  have hrun : (sampleLoop.evaluate (sampleTrace (.str "again")) none
      [sampleTrace (.str "again"), sampleTrace .null]).map
        (fun result => result.comparisons.map LoopComparison.traceIndex) = some [1] := by
    decide +kernel
  obtain ⟨result, hresult, hindex⟩ := Option.map_eq_some_iff.mp hrun
  have hnamed := h _ _ _ result (by decide) hresult
  have hpositions := map_eq_map_iff_forall₂.mpr (hnamed.imp fun _ _ hc => hc.1)
  rw [hindex] at hpositions
  exact absurd hpositions (by decide +kernel)

end LoopEnv
end PandaProbe
