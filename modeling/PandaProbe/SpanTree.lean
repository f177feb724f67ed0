import Mathlib.Data.Rat.Defs
import PandaProbe.ParentForest
import PandaProbe.TraceStore

/-! # The span tree of a trace

`buildTree` of the waterfall: a first loop makes a node of every span, a second one hangs each node
below its parent, or makes it a root when the list has no such parent.  Nodes are references, so
the result is the map of the nodes with the ids of the roots (`SpanForest`), and what is rendered
is what is reached from the roots (`depth`).

After the two loops the children and the roots are those of the parent links of the list
(`buildTree_eq`), whatever the links are.  Spans that stand in a circle are children of each other
and no roots, so they are not reached, nor is what hangs below them: nothing is lost exactly if no
span is its own ancestor (`placedOnce_iff`).
-/
namespace PandaProbe

/-- `SpanResponse`, as the frontend reads it. -/
structure SpanResponse where
  spanId : UUID
  traceId : UUID
  parentSpanId : Option UUID
  name : String
  kind : SpanKind
  status : SpanStatusCode
  input : Json
  output : Json
  model : Option String
  tokenUsage : Option JsonDict
  metadata : JsonDict
  startedAt : Option String
  endedAt : Option String
  completionStartTime : Option String
  error : Option String
  modelParameters : Option JsonDict
  cost : Option (List (String × ℚ))
  latencyMs : Option ℚ
  timeToFirstTokenMs : Option ℚ

/-- A node: the span, and the ids of the nodes below it. -/
structure SpanNode extends SpanResponse where
  children : List UUID

/-- The map of the nodes, in the order of insertion. -/
abbrev NodeMap := List (UUID × SpanNode)

namespace NodeMap

/-- `map.set`: a key that is there keeps its place. -/
def set (key : UUID) (node : SpanNode) : NodeMap → NodeMap
  | [] => [(key, node)]
  | (k, n) :: rest => if k = key then (k, node) :: rest else (k, n) :: set key node rest

/-- `map.get`. -/
def get (map : NodeMap) (key : UUID) : Option SpanNode :=
  (map.find? fun e => e.1 = key).map Prod.snd

/-- `map.has`. -/
def has (map : NodeMap) (key : UUID) : Bool := map.any fun e => e.1 = key

/-- `map.get(key)!.children.push(child)`. -/
def push (map : NodeMap) (key child : UUID) : NodeMap :=
  map.map fun e => if e.1 = key then (e.1, { e.2 with children := e.2.children ++ [child] }) else e

end NodeMap

/-- The nodes, and the roots that are returned. -/
structure SpanForest where
  map : NodeMap
  roots : List UUID

namespace SpanForest

/-- One round of the second loop.  `""` counts as no parent. -/
def place (forest : SpanForest) (entry : UUID × SpanNode) : SpanForest :=
  match entry.2.parentSpanId.filter fun p => p ≠ "" ∧ forest.map.has p with
  | some p => { forest with map := forest.map.push p entry.1 }
  | none => { forest with roots := forest.roots ++ [entry.1] }

/-- The children of a node. -/
def children (forest : SpanForest) (id : UUID) : List UUID :=
  ((forest.map.get id).map SpanNode.children).getD []

/-- What is rendered at a depth, as often as it is: the roots at depth 0, below them the children
of what is rendered one step higher. -/
def depth (forest : SpanForest) : Nat → List UUID
  | 0 => forest.roots
  | k + 1 => (forest.depth k).flatMap forest.children

end SpanForest

/-- `buildTree`. -/
def buildTree (spans : List SpanResponse) : SpanForest :=
  let map : NodeMap := spans.foldl (fun map span => NodeMap.set span.spanId ⟨span, []⟩ map) []
  map.foldl SpanForest.place ⟨map, []⟩

/-! ## The links of a list of spans -/

/-- The ids of the spans. -/
def spanIds (spans : List SpanResponse) : List UUID := spans.map SpanResponse.spanId

/-- Spans as the API has them: the ids are distinct, and a UUID is never printed as `""`. -/
structure Ingested (spans : List SpanResponse) : Prop where
  distinct : (spanIds spans).Nodup
  named : "" ∉ spanIds spans

/-- The parent of a span, when it is in the list. -/
def parentIn (spans : List SpanResponse) (span : SpanResponse) : Option UUID :=
  span.parentSpanId.filter fun p => p ∈ spanIds spans

/-- The parent links of the list. -/
def spanLinks {spans : List SpanResponse} (h : Ingested spans) : ParentLinks UUID where
  nodes := spanIds spans
  parent id := (spans.find? fun span => span.spanId = id).bind (parentIn spans)
  nodup := h.distinct
  parent_mem id _ p hp := by
    obtain ⟨span, -, hspan⟩ := Option.bind_eq_some_iff.mp hp
    exact of_decide_eq_true (Option.filter_eq_some_iff.mp hspan).2

section
variable {spans pre post : List SpanResponse} {span : SpanResponse} {id p : UUID}

theorem find?_span (h : Ingested spans) (hspan : span ∈ spans) :
    (spans.find? fun s => s.spanId = span.spanId) = some span := by
  have hsome : (spans.find? fun s => s.spanId = span.spanId).isSome :=
    List.find?_isSome.mpr ⟨span, hspan, decide_eq_true rfl⟩
  obtain ⟨found, hfound⟩ := Option.isSome_iff_exists.mp hsome
  have hid : found.spanId = span.spanId := by simpa using List.find?_some hfound
  rw [hfound, List.inj_on_of_nodup_map h.distinct (List.mem_of_find?_eq_some hfound) hspan hid]

theorem parent_span (h : Ingested spans) (hspan : span ∈ spans) :
    (spanLinks h).parent span.spanId = parentIn spans span := by
  show (spans.find? fun s => s.spanId = span.spanId).bind (parentIn spans) = _
  rw [find?_span h hspan, Option.bind_some]

/-- The links as a filter of the spans: the children of a node, or the roots. -/
theorem filter_nodes (h : Ingested spans) (parent : Option UUID) :
    ((spanLinks h).nodes.filter fun id => (spanLinks h).parent id = parent) =
      (spans.filter fun span => parentIn spans span = parent).map SpanResponse.spanId := by
  show (spans.map SpanResponse.spanId).filter _ = _
  rw [List.filter_map]
  refine congrArg _ (List.filter_congr fun span hspan => ?_)
  simp [parent_span h hspan]

/-! ## What the loops build -/

/-- The nodes placed so far with a parent, or without one. -/
def placedBelow (spans pre : List SpanResponse) (parent : Option UUID) : List UUID :=
  (pre.filter fun span => parentIn spans span = parent).map SpanResponse.spanId

/-- The second loop after the spans `pre`. -/
def laid (spans pre : List SpanResponse) : SpanForest where
  map := spans.map fun span => (span.spanId, ⟨span, placedBelow spans pre (some span.spanId)⟩)
  roots := placedBelow spans pre none

theorem placedBelow_concat (parent : Option UUID) :
    placedBelow spans (pre ++ [span]) parent =
      placedBelow spans pre parent ++ if parentIn spans span = parent then [span.spanId] else [] := by
  rw [placedBelow, List.filter_append, List.map_append, placedBelow]
  by_cases hp : parentIn spans span = parent <;> simp [hp]

theorem has_laid : (laid spans pre).map.has p = decide (p ∈ spanIds spans) := by
  rw [Bool.eq_iff_iff, decide_eq_true_iff, NodeMap.has, laid, List.any_map, List.any_eq_true]
  simp [spanIds]

/-- The check of the second loop is whether the parent is in the list. -/
theorem filter_parent (h : Ingested spans) :
    (span.parentSpanId.filter fun p => p ≠ "" ∧ (laid spans pre).map.has p) =
      parentIn spans span := by
  refine congrArg (Option.filter · span.parentSpanId) (funext fun p => ?_)
  rw [has_laid, decide_eq_decide, decide_eq_true_iff, and_iff_right_iff_imp]
  rintro hp rfl
  exact h.named hp

theorem place_laid (h : Ingested spans) (below : List UUID) :
    (laid spans pre).place (span.spanId, ⟨span, below⟩) = laid spans (pre ++ [span]) := by
  rw [SpanForest.place]
  simp only [filter_parent h]
  cases hp : parentIn spans span with
  | none => simp [laid, placedBelow_concat, hp]
  | some p =>
    simp only [laid, placedBelow_concat, hp, NodeMap.push, List.map_map, reduceCtorEq, if_false,
      List.append_nil, SpanForest.mk.injEq, and_true]
    refine List.map_congr_left fun s _ => ?_
    by_cases heq : s.spanId = p
    · simp [heq]
    · simp [heq, Ne.symm heq]

theorem foldl_place (h : Ingested spans) :
    post.foldl (fun forest s => forest.place (s.spanId, ⟨s, []⟩)) (laid spans pre) =
      laid spans (pre ++ post) := by
  induction post generalizing pre with
  | nil => rw [List.append_nil, List.foldl_nil]
  | cons s rest ih =>
    rw [List.foldl_cons, place_laid h, ih, List.append_assoc, List.singleton_append]

theorem set_of_not_mem {map : NodeMap} {node : SpanNode} (h : id ∉ map.map Prod.fst) :
    NodeMap.set id node map = map ++ [(id, node)] := by
  induction map with
  | nil => rfl
  | cons e rest ih =>
    rw [List.map_cons, List.mem_cons, not_or] at h
    rw [NodeMap.set, if_neg (Ne.symm h.1), ih h.2, List.cons_append]

theorem foldl_set (h : (spanIds (pre ++ post)).Nodup) :
    post.foldl (fun map s => NodeMap.set s.spanId ⟨s, []⟩ map)
      (pre.map fun s => (s.spanId, ⟨s, []⟩)) = (pre ++ post).map fun s => (s.spanId, ⟨s, []⟩) := by
  induction post generalizing pre with
  | nil => rw [List.append_nil, List.foldl_nil]
  | cons s rest ih =>
    have hnew : s.spanId ∉ (pre.map fun s => (s.spanId, (⟨s, []⟩ : SpanNode))).map Prod.fst := by
      rw [spanIds, List.map_append, List.map_cons, List.nodup_middle, List.nodup_cons,
        List.mem_append, not_or] at h
      simpa using h.1.1
    rw [List.append_cons] at h ⊢
    rw [List.foldl_cons, set_of_not_mem hnew, ← ih h, List.map_append]
    rfl

/-- **What `buildTree` returns**, whatever the parents are. -/
theorem buildTree_eq (h : Ingested spans) : buildTree spans = laid spans spans := by
  have hmap : spans.foldl (fun map s => NodeMap.set s.spanId ⟨s, []⟩ map) [] =
      spans.map fun s => (s.spanId, ⟨s, []⟩) :=
    foldl_set (show (spanIds ([] ++ spans)).Nodup from h.distinct)
  have hplace : spans.foldl (fun forest s => forest.place (s.spanId, ⟨s, []⟩)) (laid spans []) =
      laid spans ([] ++ spans) := foldl_place h
  rw [buildTree, hmap, List.foldl_map]
  exact hplace

/-! ## What is rendered -/

theorem get_laid (h : Ingested spans) (hspan : span ∈ spans) :
    (laid spans pre).map.get span.spanId =
      some ⟨span, placedBelow spans pre (some span.spanId)⟩ := by
  rw [NodeMap.get, laid, List.find?_map, Option.map_map]
  have hfind := find?_span h hspan
  simp only [Function.comp_def]
  rw [hfind, Option.map_some]

theorem mem_of_parentIn (hp : parentIn spans span = some p) : p ∈ spanIds spans :=
  of_decide_eq_true (Option.filter_eq_some_iff.mp hp).2

theorem children_laid (h : Ingested spans) :
    (laid spans pre).children id = placedBelow spans pre (some id) := by
  rw [SpanForest.children]
  by_cases hid : id ∈ spanIds spans
  · obtain ⟨span, hspan, rfl⟩ := List.mem_map.mp hid
    rw [get_laid h hspan]
    rfl
  · have hget : (laid spans pre).map.get id = none := by
      rw [NodeMap.get, Option.map_eq_none_iff, List.find?_eq_none, laid, List.forall_mem_map]
      intro span hspan heq
      exact hid (of_decide_eq_true heq ▸ List.mem_map_of_mem hspan)
    have hnone : (pre.filter fun span => parentIn spans span = some id) = [] :=
      List.filter_eq_nil_iff.mpr fun span _ hp => hid (mem_of_parentIn (of_decide_eq_true hp))
    rw [hget, placedBelow, hnone]
    rfl

theorem children_buildTree (h : Ingested spans) :
    (buildTree spans).children id = (spanLinks h).children id := by
  rw [buildTree_eq h, children_laid h, placedBelow, ParentLinks.children, filter_nodes]

theorem roots_buildTree (h : Ingested spans) : (buildTree spans).roots = (spanLinks h).roots := by
  rw [buildTree_eq h, laid, placedBelow, ParentLinks.roots, filter_nodes]

/-- What is rendered is what a walk along the parent links meets. -/
theorem depth_buildTree (h : Ingested spans) (k : Nat) :
    (buildTree spans).depth k = (spanLinks h).level k := by
  induction k with
  | zero => exact roots_buildTree h
  | succ k ih =>
    have hchildren : (buildTree spans).children = (spanLinks h).children :=
      funext fun id => children_buildTree h
    rw [SpanForest.depth, ParentLinks.level, ih, hchildren]

/-- A span occurs exactly once in the forest: below its parent when the parent is in the list, as a
root otherwise. -/
structure PlacedOnce (spans : List SpanResponse) (span : SpanResponse) : Prop where
  node : ∃ below, (buildTree spans).map.get span.spanId = some ⟨span, below⟩
  once : ∃ k, ((buildTree spans).depth k).count span.spanId = 1 ∧
    ∀ m, m ≠ k → span.spanId ∉ (buildTree spans).depth m
  below : ∀ p ∈ span.parentSpanId, p ∈ spanIds spans →
    (∀ q, span.spanId ∈ (buildTree spans).children q ↔ q = p) ∧
      span.spanId ∉ (buildTree spans).roots
  root : (∀ p ∈ span.parentSpanId, p ∉ spanIds spans) → span.spanId ∈ (buildTree spans).roots

theorem mem_children_buildTree (h : Ingested spans) (hspan : span ∈ spans) :
    span.spanId ∈ (buildTree spans).children p ↔ parentIn spans span = some p := by
  rw [children_buildTree h, ParentLinks.children, List.mem_filter, decide_eq_true_iff,
    parent_span h hspan]
  exact and_iff_right (List.mem_map_of_mem hspan)

theorem mem_roots_buildTree (h : Ingested spans) (hspan : span ∈ spans) :
    span.spanId ∈ (buildTree spans).roots ↔ parentIn spans span = none := by
  rw [roots_buildTree h, ParentLinks.roots, List.mem_filter, decide_eq_true_iff,
    parent_span h hspan]
  exact and_iff_right (List.mem_map_of_mem hspan)

/-- A span is placed once exactly if its chain of parents ends. -/
theorem placedOnce_iff_rooted (h : Ingested spans) (hspan : span ∈ spans) :
    PlacedOnce spans span ↔ (spanLinks h).Rooted span.spanId := by
  have honce := (spanLinks h).occursOnce_iff_rooted (List.mem_map_of_mem hspan)
  rw [← honce, ParentLinks.OccursOnce]
  simp only [← depth_buildTree h]
  refine ⟨PlacedOnce.once, fun hdepth => ⟨?_, hdepth, fun p hp hmem => ?_, fun hroot => ?_⟩⟩
  · rw [buildTree_eq h, get_laid h hspan]
    exact ⟨_, rfl⟩
  · have hparent : parentIn spans span = some p :=
      Option.filter_eq_some_iff.mpr ⟨hp, decide_eq_true hmem⟩
    refine ⟨fun q => ?_, fun hmem => ?_⟩
    · rw [mem_children_buildTree h hspan, hparent, Option.some.injEq, eq_comm]
    · rw [mem_roots_buildTree h hspan, hparent] at hmem
      cases hmem
  · rw [mem_roots_buildTree h hspan, parentIn, Option.filter_eq_none_iff]
    exact fun p hp hmem => hroot p hp (of_decide_eq_true hmem)

/-- **The tree loses nothing exactly if no span is its own ancestor.** -/
theorem placedOnce_iff (h : Ingested spans) : (∀ span ∈ spans, PlacedOnce spans span) ↔
    ∀ span ∈ spans, ∀ n, (spanLinks h).ancestor (n + 1) span.spanId ≠ some span.spanId := by
  have hrooted := (spanLinks h).all_rooted_iff
  rw [show (spanLinks h).nodes = spans.map SpanResponse.spanId from rfl] at hrooted
  simp only [List.forall_mem_map] at hrooted
  rw [← hrooted]
  exact forall₂_congr fun span hspan => placedOnce_iff_rooted h hspan

end

/-- A span with its id and its parent. -/
def sampleSpan (spanId : UUID) (parentSpanId : Option UUID) : SpanResponse where
  spanId := spanId
  traceId := "trace"
  parentSpanId := parentSpanId
  name := "step"
  kind := .agent
  status := .ok
  input := .null
  output := .null
  model := none
  tokenUsage := none
  metadata := fun _ => none
  startedAt := none
  endedAt := none
  completionStartTime := none
  error := none
  modelParameters := none
  cost := none
  latencyMs := none
  timeToFirstTokenMs := none

/-- A root, a span below it, and an orphan. -/
def sampleSpans : List SpanResponse :=
  [sampleSpan "b" (some "a"), sampleSpan "a" none, sampleSpan "c" (some "x")]

theorem ingested_sampleSpans : Ingested sampleSpans := ⟨by decide, by decide⟩

theorem rooted_sampleSpans :
    ∀ id ∈ spanIds sampleSpans, (spanLinks ingested_sampleSpans).Rooted id := by
  have hforall : ∀ id ∈ ["b", "a", "c"], (spanLinks ingested_sampleSpans).Rooted id := by
    simp only [List.forall_mem_cons]
    exact ⟨⟨1, "a", rfl, rfl⟩, ⟨0, rfl⟩, ⟨0, rfl⟩, fun _ h => absurd h List.not_mem_nil⟩
  exact hforall

theorem placedOnce_iff_sample : (buildTree sampleSpans).roots = ["a", "c"] ∧
    ∀ span ∈ sampleSpans, PlacedOnce sampleSpans span :=
  ⟨rfl, (placedOnce_iff ingested_sampleSpans).mpr fun _ hspan =>
    (spanLinks ingested_sampleSpans).all_rooted_iff.mp rooted_sampleSpans _
      (List.mem_map_of_mem hspan)⟩

/-- A span that names itself as its parent. -/
def selfParent : SpanResponse := sampleSpan "a" (some "a")

theorem ingested_selfParent : Ingested [selfParent] := ⟨by decide, by decide⟩

/-- A span that is its own parent is its own only child, and not in the forest. -/
theorem selfParent_lost : Ingested [selfParent] ∧ (buildTree [selfParent]).roots = [] ∧
    ¬ ∀ span ∈ [selfParent], PlacedOnce [selfParent] span := by
  refine ⟨ingested_selfParent, rfl, fun hall => ?_⟩
  have hplaced := hall selfParent (List.mem_singleton_self _)
  have hrooted := (placedOnce_iff_rooted ingested_selfParent (List.mem_singleton_self _)).mp hplaced
  have hown : (spanLinks ingested_selfParent).ancestor 1 "a" = some "a" := rfl
  exact hrooted.not_own_ancestor _ hown

end PandaProbe
