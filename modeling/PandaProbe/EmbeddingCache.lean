import PandaProbe.BillingEntities
import PandaProbe.LruMap

/-! # Cached embeddings

`LLMEngine.embed_texts`, with what it takes from `providers.py` to resolve a model.  The engine
keeps one cache, keyed by the hash of a text: hits move to the end, what is missing is fetched in
one request and put at the end, the oldest entries are evicted, and only then the answer is read
back.

What a sequence of calls uses can be told without the cache: a text in store is one of the last
to be used, as many as there is room for, and it is used again under the model of its last use; a
missing one is used under the model of the call (`usesAfter`).  A sequence of calls is answered
with the embeddings of its texts exactly when no call uses a text under a model that embeds it
otherwise than its own, and no call that fetches has more distinct texts than the cache has room
for (`embeddings_transparent_iff`).  Calls under one model with room enough are such a sequence
(`transparent_of_alike`).
-/
namespace PandaProbe

/-- The keys of `PROVIDERS`, in order. -/
inductive LlmProvider
  | openai | anthropic | googleGenai | vertexAi
  deriving DecidableEq, Repr

/-- A provider and its credential requirements. -/
structure ProviderSpec where
  name : String
  litellmPrefix : String
  requiredEnv : List String

namespace LlmProvider

/-- `PROVIDERS`. -/
def spec : LlmProvider → ProviderSpec
  | openai => ⟨"OpenAI", "openai/", ["OPENAI_API_KEY"]⟩
  | anthropic => ⟨"Anthropic", "anthropic/", ["ANTHROPIC_API_KEY"]⟩
  | googleGenai => ⟨"Google GenAI", "gemini/", ["GEMINI_API_KEY"]⟩
  | vertexAi => ⟨"Google Vertex AI", "vertex_ai/", ["GOOGLE_CLOUD_PROJECT"]⟩

/-- All of them. -/
def all : List LlmProvider := [openai, anthropic, googleGenai, vertexAi]

end LlmProvider

/-- `str.startswith`. -/
def startsWith (s start : String) : Bool := start.toList.isPrefixOf s.toList

/-- The well-known starts of model names, and the provider they hint at. -/
def prefixHints : List (String × String) :=
  [("gpt-", "openai/"), ("o1-", "openai/"), ("o3-", "openai/"), ("claude-", "anthropic/"),
    ("gemini-", "gemini/")]

/-- Ensure a model string includes the LiteLLM provider prefix. -/
def resolveModelString (model : String) : String :=
  if LlmProvider.all.any (fun p => startsWith model p.spec.litellmPrefix) then model
  else
    match prefixHints.find? (fun h => startsWith model h.1) with
    | some (_, start) => start ++ model
    | none => model

/-- Extract the provider key from a model string. -/
def providerKeyFromModel (model : String) : Option LlmProvider :=
  LlmProvider.all.find? (fun p => startsWith (resolveModelString model) p.spec.litellmPrefix)

example : resolveModelString "gpt-4o-mini" = "openai/gpt-4o-mini" := by decide +kernel

/-- Why a call has no answer. -/
inductive EmbedError
  | providerNotConfigured (detail : String)
  | providerFailed
  | keyError (key : String)
  deriving DecidableEq, Repr

/-- One `embed_texts` call, and whether the provider answers if it is asked. -/
structure EmbedCall where
  texts : List String
  model : Option String
  answers : Bool

/-- The settings of the engine, the hash of a text, and what the providers answer for a model and
a text. -/
structure LlmEngine (β : Type) where
  credential : String → String
  embeddingModel : String
  cacheSize : Nat
  sha256 : String → String
  embedding : String → String → β

namespace LlmEngine
variable {β : Type} (engine : LlmEngine β)

/-- Validate that the required credentials for a provider are set. -/
def checkProviderCredentials (p : LlmProvider) : Bool × String :=
  let missing := p.spec.requiredEnv.filter (fun var => engine.credential var = "")
  if missing.isEmpty then (true, "Provider '" ++ p.spec.name ++ "' is available.")
  else (false, "Provider '" ++ p.spec.name ++
    "' is not configured. Missing environment variable(s): " ++ ", ".intercalate missing)

/-- The model of a call. -/
def resolvedModel (call : EmbedCall) : String :=
  resolveModelString ((truthy call.model).getD engine.embeddingModel)

/-- The message a call is refused with. -/
def refusal (call : EmbedCall) : Option String :=
  (providerKeyFromModel (engine.resolvedModel call)).bind fun p =>
    let (ok, msg) := engine.checkProviderCredentials p
    if ok then none else some msg

/-- The texts of a call that are not cached. -/
def uncachedTexts (cache : LruMap String β) (call : EmbedCall) : List String :=
  call.texts.filter (fun t => engine.sha256 t ∉ cache.keys)

/-- The first loop: every hit moves to the end. -/
def hitAll (cache : LruMap String β) (texts : List String) : LruMap String β :=
  texts.foldl (fun c t =>
    if engine.sha256 t ∈ c.keys then c.moveToEnd (engine.sha256 t) else c) cache

/-- The second loop: what the provider answers is stored under the hashes of its texts. -/
def storeAll (cache : LruMap String β) (model : String) (texts : List String) : LruMap String β :=
  texts.foldl (fun c t => c.insert (engine.sha256 t) (engine.embedding model t)) cache

/-- The answer is read from the cache. -/
def readAll (cache : LruMap String β) (texts : List String) : Except EmbedError (List β) :=
  texts.mapM fun t =>
    match cache.get? (engine.sha256 t) with
    | some v => .ok v
    | none => .error (.keyError (engine.sha256 t))

/-- Batch-embed texts: the cache after the call, and its answer. -/
def embedTexts (cache : LruMap String β) (call : EmbedCall) :
    LruMap String β × Except EmbedError (List β) :=
  match engine.refusal call with
  | some msg => (cache, .error (.providerNotConfigured msg))
  | none =>
    let uncached := engine.uncachedTexts cache call
    let cache := engine.hitAll cache call.texts
    if uncached.isEmpty then (cache, engine.readAll cache call.texts)
    else if !call.answers then (cache, .error .providerFailed)
    else
      let cache := engine.storeAll cache (engine.resolvedModel call) uncached
      let cache := cache.evict engine.cacheSize
      (cache, engine.readAll cache call.texts)

/-- The cache before each of a list of calls. -/
def history (cache : LruMap String β) : List EmbedCall → List (LruMap String β × EmbedCall)
  | [] => []
  | call :: calls => (cache, call) :: history (engine.embedTexts cache call).1 calls

/-- **The answer of a transparent cache**: the embedding of each text under the call's model, or
an error from before the provider has answered. -/
def Transparent (call : EmbedCall) : Except EmbedError (List β) → Prop
  | .ok vectors => vectors = call.texts.map (engine.embedding (engine.resolvedModel call))
  | .error (.keyError _) => False
  | .error _ => True

instance [DecidableEq β] (call : EmbedCall) (r : Except EmbedError (List β)) :
    Decidable (engine.Transparent call r) := by
  cases r with
  | ok vectors => exact inferInstanceAs (Decidable (_ = _))
  | error e => cases e <;> unfold Transparent <;> infer_instance

/-! ## The uses of a sequence of calls -/

/-- The texts in store after some uses: those used last, as many as there is room for. -/
def stored (uses : List (String × String)) : List String :=
  LruMap.usedLast engine.cacheSize (uses.map Prod.fst)

/-- The model a text in store was last used under. -/
def storedUnder (uses : List (String × String)) (t : String) : Option String :=
  if t ∈ engine.stored uses then uses.reverse.lookup t else none

/-- The texts of a call that are not in store. -/
def missingTexts (uses : List (String × String)) (call : EmbedCall) : List String :=
  call.texts.filter (fun t => t ∉ engine.stored uses)

/-- The uses of texts in store, each under the model it is stored under. -/
def hits (uses : List (String × String)) (texts : List String) : List (String × String) :=
  texts.filterMap fun t => (engine.storedUnder uses t).map fun model => (t, model)

/-- The uses after a call: its hits, and then, if the provider answers, what was missing, each text
once and under the model of the call. -/
def usesAfter (uses : List (String × String)) (call : EmbedCall) : List (String × String) :=
  match engine.refusal call with
  | some _ => uses
  | none =>
    let hits := uses ++ engine.hits uses call.texts
    if call.answers then
      hits ++ (LruMap.firsts (engine.missingTexts uses call)).map
        fun t => (t, engine.resolvedModel call)
    else hits

/-- The uses before each of a list of calls. -/
def useHistory (uses : List (String × String)) :
    List EmbedCall → List (List (String × String) × EmbedCall)
  | [] => []
  | call :: calls => (uses, call) :: useHistory (engine.usesAfter uses call) calls

/-- The call gets as far as reading its answer. -/
def Proceeds (uses : List (String × String)) (call : EmbedCall) : Prop :=
  engine.refusal call = none ∧ (engine.missingTexts uses call = [] ∨ call.answers = true)

/-- **The condition on a call**: a text in store is stored under a model that embeds it as the
call's own does, and a call that fetches has no more distinct texts than the cache has room for. -/
structure Served (uses : List (String × String)) (call : EmbedCall) : Prop where
  own : ∀ t ∈ call.texts, ∀ model, engine.storedUnder uses t = some model →
    engine.embedding model t = engine.embedding (engine.resolvedModel call) t
  fits : engine.missingTexts uses call = [] ∨ call.texts.toFinset.card ≤ engine.cacheSize

instance (uses : List (String × String)) (call : EmbedCall) :
    Decidable (engine.Proceeds uses call) := inferInstanceAs (Decidable (_ ∧ _))

instance [DecidableEq β] (uses : List (String × String)) (call : EmbedCall) :
    Decidable (engine.Served uses call) :=
  decidable_of_iff
    ((∀ t ∈ call.texts, ∀ model ∈ engine.storedUnder uses t,
      engine.embedding model t = engine.embedding (engine.resolvedModel call) t) ∧
      (engine.missingTexts uses call = [] ∨ call.texts.toFinset.card ≤ engine.cacheSize))
    ⟨fun h => ⟨h.1, h.2⟩, fun h => ⟨h.own, h.fits⟩⟩

/-- The texts of a list of calls. -/
def textsOf (calls : List EmbedCall) : Set String := { t | ∃ call ∈ calls, t ∈ call.texts }

variable {engine} {cache : LruMap String β} {call : EmbedCall} {texts : List String}
  {model : String}

/-! ## The two loops -/

theorem mem_uncachedTexts {t : String} :
    t ∈ engine.uncachedTexts cache call ↔ t ∈ call.texts ∧ engine.sha256 t ∉ cache.keys := by
  simp [uncachedTexts]

theorem get?_hitAll (k : String) : (engine.hitAll cache texts).get? k = cache.get? k := by
  induction texts generalizing cache with
  | nil => rfl
  | cons t texts ih =>
    unfold hitAll at ih ⊢
    rw [List.foldl_cons, ih]
    split
    · exact LruMap.get?_moveToEnd _ _
    · rfl

theorem mem_keys_hitAll {k : String} : k ∈ (engine.hitAll cache texts).keys ↔ k ∈ cache.keys := by
  rw [← LruMap.get?_isSome_iff, get?_hitAll, LruMap.get?_isSome_iff]

variable (engine texts) in
/-- The hits of a call are the keys used last. -/
theorem recent_hitAll {T : Finset String} (h : cache.Recent T) :
    ∃ T', (engine.hitAll cache texts).Recent T' ∧
      ∀ k, k ∈ T' ↔ k ∈ T ∨ (k ∈ texts.map engine.sha256 ∧ k ∈ cache.keys) := by
  induction texts generalizing cache T with
  | nil => exact ⟨T, h, by simp⟩
  | cons t texts ih =>
    unfold hitAll at ih ⊢
    rw [List.foldl_cons]
    split
    next hmem =>
      obtain ⟨T', hT', hiff⟩ := ih (h.moveToEnd hmem)
      refine ⟨T', hT', fun k => ?_⟩
      rw [hiff, Finset.mem_insert, List.map_cons, List.mem_cons]
      have hkeys : k ∈ (cache.moveToEnd (engine.sha256 t)).keys ↔ k ∈ cache.keys := by
        rw [← LruMap.get?_isSome_iff, LruMap.get?_moveToEnd, LruMap.get?_isSome_iff]
      rw [hkeys]
      by_cases hk : k = engine.sha256 t
      · simp [hk, hmem]
      · simp [hk]
    next hmem =>
      obtain ⟨T', hT', hiff⟩ := ih h
      refine ⟨T', hT', fun k => ?_⟩
      rw [hiff, List.map_cons, List.mem_cons]
      by_cases hk : k = engine.sha256 t
      · simp [hk, hmem]
      · simp [hk]

/-- What is stored for a batch of texts with hashes of their own. -/
theorem get?_storeAll (hinj : Set.InjOn engine.sha256 { t | t ∈ texts }) (k : String) :
    (engine.storeAll cache model texts).get? k =
      match texts.find? (fun t => engine.sha256 t = k) with
      | some t => some (engine.embedding model t)
      | none => cache.get? k := by
  induction texts generalizing cache with
  | nil => rfl
  | cons t texts ih =>
    unfold storeAll at ih ⊢
    rw [List.foldl_cons, ih (hinj.mono fun x hx => List.mem_cons_of_mem t hx), List.find?_cons]
    cases hfind : texts.find? (fun x => engine.sha256 x = k) with
    | some x =>
      -- a later text of the same hash is the same text
      have hx : engine.sha256 x = k := by simpa using List.find?_some hfind
      by_cases ht : engine.sha256 t = k
      · have hsame : t = x := hinj (List.mem_cons_self ..)
          (List.mem_cons_of_mem t (List.mem_of_find?_eq_some hfind)) (ht.trans hx.symm)
        simp [hx, hsame]
      · simp [ht]
    | none =>
      by_cases ht : engine.sha256 t = k
      · simp [ht, LruMap.get?_insert]
      · simp [ht, LruMap.get?_insert, Ne.symm ht]

variable (model texts) in
/-- A batch of new texts is stored after the keys used last. -/
theorem recent_storeAll {T : Finset String} (h : cache.Recent T)
    (hnew : ∀ t ∈ texts, engine.sha256 t ∈ cache.keys → engine.sha256 t ∈ T) :
    ∃ T', (engine.storeAll cache model texts).Recent T' ∧
      ∀ k, k ∈ T' ↔ k ∈ T ∨ k ∈ texts.map engine.sha256 := by
  induction texts generalizing cache T with
  | nil => exact ⟨T, h, by simp⟩
  | cons t texts ih =>
    unfold storeAll at ih ⊢
    rw [List.foldl_cons]
    obtain ⟨T', hT', hiff⟩ := ih (h.insert (engine.embedding model t) (hnew t (List.mem_cons_self ..)))
      (fun x hx hmem => by
        rw [Finset.mem_insert]
        by_cases hxt : engine.sha256 x = engine.sha256 t
        · exact Or.inl hxt
        · refine Or.inr (hnew x (List.mem_cons_of_mem t hx) ?_)
          rw [← LruMap.get?_isSome_iff, LruMap.get?_insert, if_neg hxt,
            LruMap.get?_isSome_iff] at hmem
          exact hmem)
    refine ⟨T', hT', fun k => ?_⟩
    rw [hiff, Finset.mem_insert, List.map_cons, List.mem_cons]
    tauto

/-! ## Reading the answer -/

theorem readAll_eq_ok_iff {f : String → β} :
    engine.readAll cache texts = .ok (texts.map f) ↔
      ∀ t ∈ texts, cache.get? (engine.sha256 t) = some (f t) := by
  induction texts with
  | nil => simp [readAll, pure, Except.pure]
  | cons t texts ih =>
    rw [List.forall_mem_cons, ← ih, readAll, List.mapM_cons, List.map_cons]
    cases hget : cache.get? (engine.sha256 t) with
    | none => simp [bind, Except.bind]
    | some v =>
      cases hrest : engine.readAll cache texts with
      | error e =>
        rw [readAll] at hrest
        simp [hrest, bind, Except.bind]
      | ok vs =>
        rw [readAll] at hrest
        simp [hrest, bind, Except.bind, pure, Except.pure]

theorem readAll_error {e : EmbedError} (h : engine.readAll cache texts = .error e) :
    ∃ k, e = .keyError k := by
  induction texts with
  | nil => cases h
  | cons t texts ih =>
    rw [readAll, List.mapM_cons] at h
    cases hget : cache.get? (engine.sha256 t) with
    | none =>
      rw [hget] at h
      exact ⟨_, (Except.error.inj h).symm⟩
    | some v =>
      rw [hget] at h
      cases hrest : engine.readAll cache texts with
      | error e' =>
        rw [readAll] at hrest
        rw [hrest] at h
        cases h
        exact ih hrest
      | ok vs =>
        rw [readAll] at hrest
        rw [hrest] at h
        cases h

/-- The answer is the embeddings exactly when every text is read with its own. -/
theorem transparent_readAll :
    engine.Transparent call (engine.readAll cache call.texts) ↔
      ∀ t ∈ call.texts, cache.get? (engine.sha256 t) =
        some (engine.embedding (engine.resolvedModel call) t) := by
  rw [← readAll_eq_ok_iff]
  cases hread : engine.readAll cache call.texts with
  | ok vectors => rw [Transparent, Except.ok.injEq]
  | error e =>
    obtain ⟨k, rfl⟩ := readAll_error hread
    simp [Transparent]

/-! ## One call -/

/-- The keys of a call are the keys used last when it evicts, and each missing one holds its own
embedding. -/
theorem recent_fetched (cache : LruMap String β) (call : EmbedCall) :
    ((engine.storeAll (engine.hitAll cache call.texts) (engine.resolvedModel call)
      (engine.uncachedTexts cache call)).Recent (call.texts.map engine.sha256).toFinset) := by
  obtain ⟨T, hT, hhits⟩ := recent_hitAll engine call.texts (LruMap.recent_empty cache)
  obtain ⟨T', hT', hall⟩ := recent_storeAll (engine.uncachedTexts cache call)
    (engine.resolvedModel call) hT
    (fun t ht hmem => absurd (mem_keys_hitAll.mp hmem) (mem_uncachedTexts.mp ht).2)
  have heq : T' = (call.texts.map engine.sha256).toFinset := by
    ext k
    rw [hall, hhits, List.mem_toFinset]
    simp only [Finset.notMem_empty, false_or, List.mem_map, mem_uncachedTexts]
    constructor
    · rintro (⟨hk, -⟩ | ⟨t, ⟨ht, -⟩, rfl⟩)
      · exact hk
      · exact ⟨t, ht, rfl⟩
    · rintro ⟨t, ht, rfl⟩
      by_cases hcached : engine.sha256 t ∈ cache.keys
      · exact Or.inl ⟨⟨t, ht, rfl⟩, hcached⟩
      · exact Or.inr ⟨t, ⟨ht, hcached⟩, rfl⟩
  exact heq ▸ hT'

/-- What the cache holds for a text of the call before it evicts. -/
theorem get?_fetched (hinj : Set.InjOn engine.sha256 { t | t ∈ call.texts }) {t : String}
    (ht : t ∈ call.texts) :
    (engine.storeAll (engine.hitAll cache call.texts) model
      (engine.uncachedTexts cache call)).get? (engine.sha256 t) =
      some ((cache.get? (engine.sha256 t)).getD (engine.embedding model t)) := by
  have hsub : { x | x ∈ engine.uncachedTexts cache call } ⊆ { x | x ∈ call.texts } :=
    fun x hx => (mem_uncachedTexts.mp hx).1
  rw [get?_storeAll (hinj.mono hsub), get?_hitAll]
  cases hfind : (engine.uncachedTexts cache call).find?
      (fun x => engine.sha256 x = engine.sha256 t) with
  | some x =>
    have hmem := List.mem_of_find?_eq_some hfind
    have hx : engine.sha256 x = engine.sha256 t := by simpa using List.find?_some hfind
    obtain rfl : x = t := hinj (hsub hmem) ht hx
    have hnone : cache.get? (engine.sha256 x) = none := by
      rw [← Option.not_isSome_iff_eq_none, LruMap.get?_isSome_iff]
      exact (mem_uncachedTexts.mp hmem).2
    rw [hnone, Option.getD_none]
  | none =>
    have hcached : engine.sha256 t ∈ cache.keys := by
      by_contra hmiss
      have := List.find?_eq_none.mp hfind t (mem_uncachedTexts.mpr ⟨ht, hmiss⟩)
      simp at this
    obtain ⟨v, hv⟩ := Option.isSome_iff_exists.mp (LruMap.get?_isSome_iff.mpr hcached)
    rw [hv, Option.getD_some]

/-- A cached text is read with its own embedding exactly when that is what the cache holds. -/
theorem getD_eq_iff {v : β} {o : Option β} : o.getD v = v ↔ ∀ v', o = some v' → v' = v := by
  cases o <;> simp

/-- A call that fetches is answered with the embeddings exactly when its hits are its own and its
texts fit. -/
theorem transparent_fetched (hinj : Set.InjOn engine.sha256 { t | t ∈ call.texts }) :
    engine.Transparent call (engine.readAll
      ((engine.storeAll (engine.hitAll cache call.texts) (engine.resolvedModel call)
        (engine.uncachedTexts cache call)).evict engine.cacheSize) call.texts) ↔
      (∀ t ∈ call.texts, ∀ v, cache.get? (engine.sha256 t) = some v →
        v = engine.embedding (engine.resolvedModel call) t) ∧
      call.texts.toFinset.card ≤ engine.cacheSize := by
  have hcard : (call.texts.map engine.sha256).toFinset.card = call.texts.toFinset.card := by
    have himage : (call.texts.map engine.sha256).toFinset =
        call.texts.toFinset.image engine.sha256 := by
      ext k
      simp
    rw [himage]
    exact Finset.card_image_of_injOn fun x hx y hy => hinj (by simpa using hx) (by simpa using hy)
  rw [transparent_readAll, ← hcard, ← (recent_fetched cache call).evict_iff]
  constructor
  · intro hread
    have hkept : ∀ t ∈ call.texts, engine.sha256 t ∈ ((engine.storeAll
        (engine.hitAll cache call.texts) (engine.resolvedModel call)
        (engine.uncachedTexts cache call)).evict engine.cacheSize).keys := fun t ht =>
      LruMap.get?_isSome_iff.mp (Option.isSome_iff_exists.mpr ⟨_, hread t ht⟩)
    constructor
    · intro t ht
      have hget := hread t ht
      rw [LruMap.get?_evict_of_mem (hkept t ht), get?_fetched hinj ht] at hget
      exact getD_eq_iff.mp (Option.some.inj hget)
    · intro k hk
      obtain ⟨t, ht, rfl⟩ := List.mem_map.mp (List.mem_toFinset.mp hk)
      exact hkept t ht
  · rintro ⟨hown, hkept⟩ t ht
    have hmem := hkept _ (List.mem_toFinset.mpr (List.mem_map_of_mem ht))
    rw [LruMap.get?_evict_of_mem hmem, get?_fetched hinj ht, getD_eq_iff.mpr (hown t ht)]

/-- **One call is transparent** exactly when, if it gets as far as reading its answer, its hits
are its own and its texts fit. -/
theorem transparent_iff (hinj : Set.InjOn engine.sha256 { t | t ∈ call.texts }) :
    engine.Transparent call (engine.embedTexts cache call).2 ↔
      (engine.refusal call = none ∧ (engine.uncachedTexts cache call = [] ∨ call.answers = true) →
        (∀ t ∈ call.texts, ∀ v, cache.get? (engine.sha256 t) = some v →
          v = engine.embedding (engine.resolvedModel call) t) ∧
        (engine.uncachedTexts cache call = [] ∨
          call.texts.toFinset.card ≤ engine.cacheSize)) := by
  unfold embedTexts
  cases hrefusal : engine.refusal call with
  | some msg => exact ⟨fun _ hp => absurd hp.1 (Option.some_ne_none msg), fun _ => trivial⟩
  | none =>
    by_cases hcached : engine.uncachedTexts cache call = []
    · -- every text is a hit, and nothing is evicted
      simp only [hcached, List.isEmpty_nil, if_true, transparent_readAll, get?_hitAll]
      refine ⟨fun h _ => ⟨fun t ht v hv => ?_, Or.inl trivial⟩, fun h t ht => ?_⟩
      · exact Option.some.inj (hv.symm.trans (h t ht))
      · have hmem : engine.sha256 t ∈ cache.keys := by
          by_contra hmiss
          have := mem_uncachedTexts.mpr ⟨ht, hmiss⟩
          rw [hcached] at this
          cases this
        obtain ⟨v, hv⟩ := Option.isSome_iff_exists.mp (LruMap.get?_isSome_iff.mpr hmem)
        rw [hv, (h ⟨trivial, Or.inl trivial⟩).1 t ht v hv]
    · have hne : (engine.uncachedTexts cache call).isEmpty = false := by simpa using hcached
      simp only [hne, Bool.false_eq_true, if_false]
      cases hanswers : call.answers with
      | false =>
        refine ⟨fun _ hp => ?_, fun _ => trivial⟩
        rcases hp.2 with hnil | hyes
        · exact absurd hnil hcached
        · cases hyes
      | true =>
        simp only [Bool.not_true, Bool.false_eq_true, if_false]
        rw [transparent_fetched hinj]
        constructor
        · rintro ⟨hown, hfits⟩ -
          exact ⟨hown, Or.inr hfits⟩
        · intro h
          obtain ⟨hown, hfits⟩ := h ⟨trivial, Or.inr trivial⟩
          exact ⟨hown, hfits.resolve_left hcached⟩

/-! ## The cache after some uses -/

variable {uses : List (String × String)} {S : Set String} {t : String}

/-- **What the cache is after some uses**: the texts in store in the order of their last uses, each
with its embedding under the model it is stored under. -/
structure Shows (engine : LlmEngine β) (S : Set String) (cache : LruMap String β)
    (uses : List (String × String)) : Prop where
  keys : cache.keys = (engine.stored uses).map engine.sha256
  held : ∀ t ∈ S, cache.get? (engine.sha256 t) =
    (engine.storedUnder uses t).map fun model => engine.embedding model t
  among : ∀ u ∈ uses, u.1 ∈ S

theorem mem_uses_of_stored (h : t ∈ engine.stored uses) : ∃ u ∈ uses, u.1 = t :=
  List.mem_map.mp (LruMap.mem_of_mem_usedLast h)

theorem storedUnder_eq_none_iff : engine.storedUnder uses t = none ↔ t ∉ engine.stored uses := by
  unfold storedUnder
  split
  next h =>
    obtain ⟨u, hu, rfl⟩ := mem_uses_of_stored h
    refine iff_of_false (fun hnone => ?_) (not_not.mpr h)
    have := List.lookup_eq_none_iff.mp hnone u (List.mem_reverse.mpr hu)
    simp at this
  next h => exact iff_of_true rfl h

/-- What is stored under a model was used under it. -/
theorem mem_of_storedUnder (h : engine.storedUnder uses t = some model) : (t, model) ∈ uses := by
  unfold storedUnder at h
  split at h
  · obtain ⟨l₁, l₂, hl, -⟩ := List.lookup_eq_some_iff.mp h
    rw [← List.mem_reverse, hl]
    exact List.mem_append_right _ List.mem_cons_self
  · cases h

/-- A text of `S` is a key exactly when it is in store. -/
theorem mem_keys_iff (hinj : Set.InjOn engine.sha256 S) (hamong : ∀ u ∈ uses, u.1 ∈ S)
    (hkeys : cache.keys = (engine.stored uses).map engine.sha256) (ht : t ∈ S) :
    engine.sha256 t ∈ cache.keys ↔ t ∈ engine.stored uses := by
  rw [hkeys, List.mem_map]
  constructor
  · rintro ⟨t', ht', hhash⟩
    obtain ⟨u, hu, rfl⟩ := mem_uses_of_stored ht'
    exact hinj (hamong u hu) ht hhash ▸ ht'
  · exact fun hmem => ⟨t, hmem, rfl⟩

theorem mem_stored_of_storedUnder (h : engine.storedUnder uses t = some model) :
    t ∈ engine.stored uses := by
  by_contra hmiss
  rw [storedUnder_eq_none_iff.mpr hmiss] at h
  cases h

theorem stored_hit (h : t ∈ engine.stored uses) (model : String) :
    engine.stored (uses ++ [(t, model)]) =
      (engine.stored uses).filter (fun t' => t' ≠ t) ++ [t] := by
  rw [stored, List.map_append]
  exact LruMap.usedLast_hit h

/-- A hit changes no model that a text is stored under. -/
theorem storedUnder_hit (h : engine.storedUnder uses t = some model) :
    engine.storedUnder (uses ++ [(t, model)]) = engine.storedUnder uses := by
  have hmem := mem_stored_of_storedUnder h
  have hstored : ∀ t', t' ∈ engine.stored (uses ++ [(t, model)]) ↔ t' ∈ engine.stored uses := by
    intro t'
    rw [stored_hit hmem, List.mem_append, List.mem_filter, List.mem_singleton, decide_eq_true_eq]
    by_cases ht' : t' = t
    · exact iff_of_true (Or.inr ht') (ht' ▸ hmem)
    · simp [ht']
  funext t'
  rw [storedUnder, storedUnder, List.reverse_append, List.reverse_singleton,
    List.singleton_append, List.lookup_cons]
  simp only [hstored]
  by_cases ht' : t' = t
  · subst ht'
    rw [storedUnder, if_pos hmem] at h
    simp [h]
  · have hne : (t' == t) = false := by simpa using ht'
    rw [hne]

theorem Shows.hit (h : engine.Shows S cache uses) (hinj : Set.InjOn engine.sha256 S)
    (hunder : engine.storedUnder uses t = some model) (ht : t ∈ S) :
    engine.Shows S (cache.moveToEnd (engine.sha256 t)) (uses ++ [(t, model)]) where
  keys := by
    have hmem := mem_stored_of_storedUnder hunder
    have hkey := (mem_keys_iff hinj h.among h.keys ht).mpr hmem
    have hfilter : (engine.stored uses).filter ((fun k => decide (k ≠ engine.sha256 t)) ∘
        engine.sha256) = (engine.stored uses).filter (fun t' => t' ≠ t) := by
      refine List.filter_congr fun t' ht' => ?_
      obtain ⟨u, hu, rfl⟩ := mem_uses_of_stored ht'
      exact decide_eq_decide.mpr (not_congr (hinj.eq_iff (h.among u hu) ht))
    rw [LruMap.keys_moveToEnd hkey, h.keys, List.filter_map, hfilter, stored_hit hmem,
      List.map_append, List.map_singleton]
  held := by
    intro t' ht'
    rw [LruMap.get?_moveToEnd, storedUnder_hit hunder]
    exact h.held t' ht'
  among := by
    intro u hu
    rcases List.mem_append.mp hu with hu | hu
    · exact h.among u hu
    · rw [List.mem_singleton.mp hu]
      exact ht

theorem hits_congr {uses' : List (String × String)}
    (h : engine.storedUnder uses' = engine.storedUnder uses) (texts : List String) :
    engine.hits uses' texts = engine.hits uses texts := by
  rw [hits, hits, h]

/-- **The first loop** uses what is in store. -/
theorem Shows.hitAll (h : engine.Shows S cache uses) (hinj : Set.InjOn engine.sha256 S)
    (hS : ∀ t ∈ texts, t ∈ S) :
    engine.Shows S (engine.hitAll cache texts) (uses ++ engine.hits uses texts) ∧
      engine.storedUnder (uses ++ engine.hits uses texts) = engine.storedUnder uses := by
  induction texts generalizing cache uses with
  | nil =>
    rw [hits, List.filterMap_nil, List.append_nil]
    exact ⟨h, rfl⟩
  | cons t texts ih =>
    have ht := hS t List.mem_cons_self
    have hrest : ∀ t ∈ texts, t ∈ S := fun x hx => hS x (List.mem_cons_of_mem t hx)
    rw [LlmEngine.hitAll, List.foldl_cons]
    cases hunder : engine.storedUnder uses t with
    | none =>
      have hmiss := storedUnder_eq_none_iff.mp hunder
      have hhits : engine.hits uses (t :: texts) = engine.hits uses texts := by
        rw [hits, List.filterMap_cons, hunder]
        rfl
      rw [if_neg (mt (mem_keys_iff hinj h.among h.keys ht).mp hmiss), hhits]
      exact ih h hrest
    | some model =>
      have hmem := mem_stored_of_storedUnder hunder
      have hhits : uses ++ engine.hits uses (t :: texts) =
          uses ++ [(t, model)] ++ engine.hits (uses ++ [(t, model)]) texts := by
        rw [hits_congr (storedUnder_hit hunder), hits, List.filterMap_cons, hunder,
          List.append_assoc]
        rfl
      rw [if_pos ((mem_keys_iff hinj h.among h.keys ht).mpr hmem), hhits]
      obtain ⟨hshows, hsame⟩ := ih (h.hit hinj hunder ht) hrest
      exact ⟨hshows, hsame.trans (storedUnder_hit hunder)⟩

/-- The uses of a batch of missing texts. -/
theorem stored_batch {batch : List String} (hbatch : batch.Nodup)
    (hmiss : ∀ t ∈ batch, t ∉ engine.stored uses) (model : String) :
    engine.stored (uses ++ batch.map fun t => (t, model)) =
      (engine.stored uses ++ batch).rtake engine.cacheSize := by
  have hmap : (batch.map fun t => (t, model)).map Prod.fst = batch := by
    rw [List.map_map]
    exact List.map_id batch
  rw [stored, List.map_append, hmap]
  exact LruMap.usedLast_batch hbatch hmiss

/-- Looking a text up among texts that are all stored under one model. -/
theorem lookup_map_const (batch : List String) :
    (batch.map fun t => (t, model)).lookup t = if t ∈ batch then some model else none := by
  induction batch with
  | nil => rfl
  | cons x batch ih =>
    rw [List.map_cons, List.lookup_cons, ih]
    by_cases hx : t = x
    · simp [hx]
    · have hne : (t == x) = false := by simpa using hx
      simp [hne, hx]

/-- What a text is stored under after a batch of missing texts. -/
theorem storedUnder_batch {batch : List String} (hbatch : batch.Nodup)
    (hmiss : ∀ t ∈ batch, t ∉ engine.stored uses)
    (ht : t ∈ engine.stored (uses ++ batch.map fun t => (t, model))) :
    engine.storedUnder (uses ++ batch.map fun t => (t, model)) t =
      if t ∈ batch then some model else engine.storedUnder uses t := by
  rw [storedUnder, if_pos ht, List.reverse_append, List.lookup_append, ← List.map_reverse,
    lookup_map_const]
  simp only [List.mem_reverse]
  split
  · rfl
  next hb =>
    have hold : t ∈ engine.stored uses := by
      rw [stored_batch hbatch hmiss] at ht
      exact (List.mem_append.mp (List.mem_of_mem_drop ht)).resolve_right hb
    rw [Option.none_or, storedUnder, if_pos hold]

/-- **The second loop and the eviction** use what was missing. -/
theorem Shows.storeAll (h : engine.Shows S cache uses) (hinj : Set.InjOn engine.sha256 S)
    (hS : ∀ t ∈ texts, t ∈ S) (hmiss : ∀ t ∈ texts, t ∉ engine.stored uses) :
    engine.Shows S ((engine.storeAll cache model texts).evict engine.cacheSize)
      (uses ++ (LruMap.firsts texts).map fun t => (t, model)) := by
  have hbatch := LruMap.nodup_firsts texts
  have hnew : ∀ t ∈ LruMap.firsts texts, t ∉ engine.stored uses :=
    fun t ht => hmiss t (LruMap.mem_firsts.mp ht)
  have hkeys : ((engine.storeAll cache model texts).evict engine.cacheSize).keys =
      (engine.stored (uses ++ (LruMap.firsts texts).map fun t => (t, model))).map
        engine.sha256 := by
    have hall : (engine.storeAll cache model texts).keys =
        cache.keys ++ (LruMap.firsts texts).map engine.sha256 :=
      LruMap.keys_foldl_insert (engine.embedding model) (hinj.mono hS)
        fun t ht => mt (mem_keys_iff hinj h.among h.keys (hS t ht)).mp (hmiss t ht)
    rw [LruMap.keys_evict, hall, h.keys, ← List.map_append, stored_batch hbatch hnew, List.rtake,
      List.rtake, List.map_drop, List.length_map]
  have hamong : ∀ u ∈ uses ++ (LruMap.firsts texts).map (fun t => (t, model)), u.1 ∈ S := by
    intro u hu
    rcases List.mem_append.mp hu with hu | hu
    · exact h.among u hu
    · obtain ⟨t, ht, rfl⟩ := List.mem_map.mp hu
      exact hS t (LruMap.mem_firsts.mp ht)
  refine ⟨hkeys, fun t ht => ?_, hamong⟩
  by_cases hmem : t ∈ engine.stored (uses ++ (LruMap.firsts texts).map fun t => (t, model))
  · rw [LruMap.get?_evict_of_mem ((mem_keys_iff hinj hamong hkeys ht).mpr hmem),
      get?_storeAll (hinj.mono hS), storedUnder_batch hbatch hnew hmem]
    simp only [LruMap.mem_firsts]
    split
    next x hfind =>
      have hx := List.mem_of_find?_eq_some hfind
      have hhash : engine.sha256 x = engine.sha256 t := by simpa using List.find?_some hfind
      obtain rfl := hinj (hS x hx) ht hhash
      rw [if_pos hx]
      rfl
    next hfind =>
      have hnot : t ∉ texts := fun hx => by
        have := List.find?_eq_none.mp hfind t hx
        simp at this
      rw [if_neg hnot]
      exact h.held t ht
  · rw [storedUnder_eq_none_iff.mpr hmem, Option.map_none, ← Option.not_isSome_iff_eq_none,
      LruMap.get?_isSome_iff]
    exact mt (mem_keys_iff hinj hamong hkeys ht).mp hmem

theorem Shows.missingTexts_eq (h : engine.Shows S cache uses) (hinj : Set.InjOn engine.sha256 S)
    (hS : ∀ t ∈ call.texts, t ∈ S) :
    engine.uncachedTexts cache call = engine.missingTexts uses call := by
  refine List.filter_congr fun t ht => ?_
  exact decide_eq_decide.mpr (not_congr (mem_keys_iff hinj h.among h.keys (hS t ht)))

/-- **A call takes the cache to what its uses say.** -/
theorem Shows.embedTexts (h : engine.Shows S cache uses) (hinj : Set.InjOn engine.sha256 S)
    (hS : ∀ t ∈ call.texts, t ∈ S) :
    engine.Shows S (engine.embedTexts cache call).1 (engine.usesAfter uses call) := by
  obtain ⟨hhits, hsame⟩ := h.hitAll hinj hS
  have hmissing := h.missingTexts_eq hinj hS
  have hsub : ∀ t ∈ engine.missingTexts uses call, t ∈ S :=
    fun t ht => hS t (List.mem_filter.mp ht).1
  have hmiss : ∀ t ∈ engine.missingTexts uses call,
      t ∉ engine.stored (uses ++ engine.hits uses call.texts) := by
    intro t ht
    rw [← storedUnder_eq_none_iff, hsame, storedUnder_eq_none_iff]
    exact of_decide_eq_true (List.mem_filter.mp ht).2
  unfold LlmEngine.embedTexts usesAfter
  cases engine.refusal call with
  | some msg => exact h
  | none =>
    simp only [hmissing]
    cases hnil : engine.missingTexts uses call with
    | nil =>
      -- every text is a hit
      simp only [List.isEmpty_nil, if_true, LruMap.firsts, List.reverse_nil, List.dedup_nil,
        List.map_nil, List.append_nil, ite_self]
      exact hhits
    | cons t texts =>
      rw [hnil] at hsub hmiss
      cases call.answers with
      | false => exact hhits
      | true => exact hhits.storeAll hinj hsub hmiss

/-- **One call, by its uses.** -/
theorem Shows.transparent_iff (h : engine.Shows S cache uses) (hinj : Set.InjOn engine.sha256 S)
    (hS : ∀ t ∈ call.texts, t ∈ S) :
    engine.Transparent call (engine.embedTexts cache call).2 ↔
      (engine.Proceeds uses call → engine.Served uses call) := by
  have hown : (∀ t ∈ call.texts, ∀ v, cache.get? (engine.sha256 t) = some v →
      v = engine.embedding (engine.resolvedModel call) t) ↔
      ∀ t ∈ call.texts, ∀ model, engine.storedUnder uses t = some model →
        engine.embedding model t = engine.embedding (engine.resolvedModel call) t := by
    refine forall₂_congr fun t ht => ?_
    rw [h.held t (hS t ht)]
    cases engine.storedUnder uses t with
    | none => exact iff_of_true (fun _ hv => by cases hv) (fun _ hm => by cases hm)
    | some model => simp
  rw [LlmEngine.transparent_iff (hinj.mono hS), h.missingTexts_eq hinj hS, hown]
  exact imp_congr_right fun _ =>
    ⟨fun ⟨ho, hf⟩ => ⟨ho, hf⟩, fun hserved => ⟨hserved.own, hserved.fits⟩⟩

/-! ## Every sequence of calls -/

theorem shows_empty (S : Set String) : engine.Shows S LruMap.empty [] where
  keys := by
    rw [stored, List.map_nil, LruMap.usedLast, List.dedup_nil, List.rtake_nil]
    rfl
  held := fun t _ => by
    rw [storedUnder_eq_none_iff.mpr fun ht => ?_]
    · rfl
    · obtain ⟨u, hu, -⟩ := mem_uses_of_stored ht
      cases hu
  among := fun u hu => absurd hu List.not_mem_nil

theorem Shows.transparent_history {calls : List EmbedCall} (h : engine.Shows S cache uses)
    (hinj : Set.InjOn engine.sha256 S) (hS : ∀ call ∈ calls, ∀ t ∈ call.texts, t ∈ S) :
    (∀ p ∈ engine.history cache calls,
      engine.Transparent p.2 (engine.embedTexts p.1 p.2).2) ↔
    ∀ p ∈ engine.useHistory uses calls, engine.Proceeds p.1 p.2 → engine.Served p.1 p.2 := by
  induction calls generalizing cache uses with
  | nil => exact iff_of_true (fun p hp => by cases hp) (fun p hp => by cases hp)
  | cons call calls ih =>
    have hcall := hS call List.mem_cons_self
    rw [history, useHistory, List.forall_mem_cons, List.forall_mem_cons]
    exact and_congr (h.transparent_iff hinj hcall)
      (ih (h.embedTexts hinj hcall) fun c hc => hS c (List.mem_cons_of_mem call hc))

/-- **A cache under several models.**  In every sequence of calls on one engine, for every cache
size: each call returns the provider's embedding of each of its texts under its own model, and
fails only before the provider has answered, if and only if each call that gets that far uses no
text under a model that embeds it otherwise and, unless all of its texts are in store, has no more
distinct texts than the cache has room for. -/
theorem embeddings_transparent_iff (engine : LlmEngine β) (calls : List EmbedCall)
    (hinj : Set.InjOn engine.sha256 (textsOf calls)) :
    (∀ p ∈ engine.history LruMap.empty calls,
      engine.Transparent p.2 (engine.embedTexts p.1 p.2).2) ↔
    ∀ p ∈ engine.useHistory [] calls, engine.Proceeds p.1 p.2 → engine.Served p.1 p.2 :=
  (shows_empty _).transparent_history hinj fun call hcall _ ht => ⟨call, hcall, ht⟩

/-! ## Calls under one model -/

/-- Every use is under the model of some call. -/
theorem model_useHistory {calls later : List EmbedCall} (hsub : later ⊆ calls)
    (h : ∀ u ∈ uses, ∃ call ∈ calls, u.2 = engine.resolvedModel call)
    {p : List (String × String) × EmbedCall} (hp : p ∈ engine.useHistory uses later) :
    p.2 ∈ calls ∧ ∀ u ∈ p.1, ∃ call ∈ calls, u.2 = engine.resolvedModel call := by
  induction later generalizing uses with
  | nil => cases hp
  | cons call later ih =>
    have hcall := hsub List.mem_cons_self
    rcases List.mem_cons.mp hp with rfl | hp
    · exact ⟨hcall, h⟩
    refine ih (fun c hc => hsub (List.mem_cons_of_mem call hc)) (fun u hu => ?_) hp
    have hhit : ∀ u ∈ uses ++ engine.hits uses call.texts,
        ∃ call ∈ calls, u.2 = engine.resolvedModel call := by
      intro u hu
      rcases List.mem_append.mp hu with hu | hu
      · exact h u hu
      · obtain ⟨t, -, ht⟩ := List.mem_filterMap.mp hu
        obtain ⟨model, hmodel, rfl⟩ := Option.map_eq_some_iff.mp ht
        exact h _ (mem_of_storedUnder hmodel)
    unfold usesAfter at hu
    split at hu
    · exact h u hu
    · simp only at hu
      split at hu
      · rcases List.mem_append.mp hu with hu | hu
        · exact hhit u hu
        · obtain ⟨t, -, rfl⟩ := List.mem_map.mp hu
          exact ⟨call, hcall, rfl⟩
      · exact hhit u hu

/-- **Calls whose models embed alike, none larger than the cache, are all transparent.** -/
theorem transparent_of_alike {calls : List EmbedCall}
    (hinj : Set.InjOn engine.sha256 (textsOf calls))
    (halike : ∀ a ∈ calls, ∀ b ∈ calls, ∀ t, engine.embedding (engine.resolvedModel a) t =
      engine.embedding (engine.resolvedModel b) t)
    (hfits : ∀ call ∈ calls, call.texts.toFinset.card ≤ engine.cacheSize) :
    ∀ p ∈ engine.history LruMap.empty calls,
      engine.Transparent p.2 (engine.embedTexts p.1 p.2).2 := by
  have hempty : engine.Shows (textsOf calls) LruMap.empty [] := shows_empty _
  rw [hempty.transparent_history hinj fun call hcall _ ht => ⟨call, hcall, ht⟩]
  intro p hp _
  obtain ⟨hmem, huses⟩ := model_useHistory (fun _ hc => hc)
    (fun u hu => absurd hu List.not_mem_nil) hp
  refine ⟨fun t ht model hmodel => ?_, Or.inr (hfits p.2 hmem)⟩
  obtain ⟨call, hcall, rfl⟩ := huses _ (mem_of_storedUnder hmodel)
  exact halike call hcall p.2 hmem t

/-! ## Two ways to fail -/

/-- An engine whose providers embed a text as the lengths of the model's name and of the text,
with room for a given number of entries. -/
def sampleEngine (cacheSize : Nat) : LlmEngine (List Nat) where
  credential := fun _ => "key"
  embeddingModel := "vertex_ai/text-embedding-004"
  cacheSize := cacheSize
  sha256 := id
  embedding := fun model t => [model.length, t.length]

/-- One text, under two models. -/
def twoModels : List EmbedCall :=
  [⟨["hi"], some "openai/text-embedding-3-small", true⟩,
    ⟨["hi"], some "gemini/text-embedding-004", true⟩]

/-- Two texts, of which the first is dropped and comes back under another model. -/
def changedModel : List EmbedCall :=
  [⟨["hi", "hi"], none, true⟩, ⟨["yes"], some "openai/text-embedding-3-small", true⟩,
    ⟨["yes", "no"], some "openai/text-embedding-3-small", true⟩,
    ⟨["hi"], some "openai/text-embedding-3-small", true⟩]

/-- Room for two entries serves them: what is in store before each call, and that all are right. -/
theorem embeddings_transparent_iff_changed :
    ((sampleEngine 2).history LruMap.empty changedModel).map (fun p => p.1.keys) =
      [[], ["hi"], ["hi", "yes"], ["yes", "no"]] ∧
    ∀ p ∈ (sampleEngine 2).history LruMap.empty changedModel,
      (sampleEngine 2).Transparent p.2 ((sampleEngine 2).embedTexts p.1 p.2).2 := by
  refine ⟨by decide +kernel, ?_⟩
  rw [embeddings_transparent_iff (sampleEngine 2) changedModel fun _ _ _ _ h => h]
  decide +kernel

/-- **A text is answered with the embedding of the model that asked for it first**, and a call
with two texts fails on a cache with room for one. -/
theorem embedding_of_other_model :
    (∃ p ∈ (sampleEngine 2048).history LruMap.empty twoModels,
      ¬ (sampleEngine 2048).Transparent p.2 ((sampleEngine 2048).embedTexts p.1 p.2).2) ∧
    (∃ p ∈ (sampleEngine 1).history LruMap.empty [⟨["a", "b"], none, true⟩],
      ¬ (sampleEngine 1).Transparent p.2 ((sampleEngine 1).embedTexts p.1 p.2).2) := by
  decide +kernel

end LlmEngine
end PandaProbe
