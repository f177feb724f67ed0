import PandaProbe.BillingHandlers
import PandaProbe.GuardedRun

/-! # The cached subscription

`_get_subscription_cached` reads through the Redis cache: on a miss it reads the row from
the database and fills the cache with it.  A writer commits its change and then either
re-reads the row and sets the cache (`_warm_sub_cache`, where any failure is swallowed) or
deletes the cached row (`invalidate_subscription_cache`).

Any number of readers and writers take turns between their single calls.  Commits are
numbered, and the machine keeps the row each one left, the number of the cached row, and
the newest commit of a writer that has returned.

A read is never older than a returned writer's commit in every run in which a fill, or the
set of a warm, carries a row read after the commits of all the writers that have returned
(`InOrder`).  `stale_reads` has two runs that are not like that: a reader suspended across a
whole write, and a warm overtaken by another writer's.
-/
namespace PandaProbe

/-- Where a task is.  Readers: a miss, with the newest returned commit at the read's start;
the row fetched and its number.  Writers: a commit made, with its number; the row re-read for
the cache and its number. -/
inductive CacheTask
  | idle
  | missed (floor : Nat)
  | fetched (floor : Nat) (sub : Subscription) (version : Nat)
  | warming (commit : Nat)
  | reread (commit : Nat) (row : Option Subscription) (version : Nat)
  | invalidating (commit : Nat)

/-- A finished cached read: the newest returned commit at its start, and what it returned. -/
structure CachedRead where
  floor : Nat
  row : Option Subscription
  deriving DecidableEq

/-- The organization's state, its commits and its tasks. -/
structure CacheRun where
  st : UsageState
  version : Nat
  history : Nat → Option Subscription
  cachedAt : Nat
  settled : Nat
  task : Nat → CacheTask
  reads : List CachedRead

/-- What can happen next. -/
inductive CacheAct
  | get (w : Nat)
  | fetch (w : Nat)
  | fill (w : Nat)
  | commitWarm (w : Nat) (db : BillingDb)
  | commitInvalidate (w : Nat) (db : BillingDb)
  | reread (w : Nat)
  | warm (w : Nat)
  | warmFailed (w : Nat)
  | invalidate (w : Nat)
  | fail (w : Nat)
  | expire

namespace CacheRun
variable (s : CacheRun)

/-- The task moves on. -/
def goto (w : Nat) (p : CacheTask) : CacheRun := { s with task := Function.update s.task w p }

/-- A cached read returns. -/
def respond (floor : Nat) (row : Option Subscription) : CacheRun :=
  { s with reads := s.reads ++ [⟨floor, row⟩] }

/-- The cache is set to a row read at a version. -/
def setCache (row : Option Subscription) (version : Nat) : CacheRun :=
  { s with st := { s.st with cache := row }, cachedAt := version }

/-- A writer with that commit returns. -/
def settle (commit : Nat) : CacheRun := { s with settled := max s.settled commit }

/-- A transaction commits. -/
def commit (db : BillingDb) : CacheRun :=
  { s with
    st := { s.st with db := db }
    version := s.version + 1
    history := Function.update s.history (s.version + 1) db.subscription }

/-- The cache read of `_get_subscription_cached`. -/
def get (w : Nat) : Option CacheRun :=
  match s.task w with
  | .idle =>
    match s.st.cache with
    | some sub => some (s.respond s.settled (some sub))
    | none => some (s.goto w (.missed s.settled))
  | _ => none

/-- Its database read. -/
def fetch (w : Nat) : Option CacheRun :=
  match s.task w with
  | .missed floor =>
    match s.st.db.subscription with
    | none => some ((s.respond floor none).goto w .idle)
    | some sub => some (s.goto w (.fetched floor sub s.version))
  | _ => none

/-- Its cache fill. -/
def fill (w : Nat) : Option CacheRun :=
  match s.task w with
  | .fetched floor sub version =>
    some (((s.setCache (some sub) version).respond floor (some sub)).goto w .idle)
  | _ => none

/-- The database read of `_warm_sub_cache`. -/
def reread (w : Nat) : Option CacheRun :=
  match s.task w with
  | .warming c => some (s.goto w (.reread c s.st.db.subscription s.version))
  | _ => none

/-- Its `set`, or its `delete` where the organization has no row. -/
def warm (w : Nat) : Option CacheRun :=
  match s.task w with
  | .reread c row version => some (((s.setCache row version).settle c).goto w .idle)
  | _ => none

/-- Its swallowed failure. -/
def warmFailed (w : Nat) : Option CacheRun :=
  match s.task w with
  | .warming c => some ((s.settle c).goto w .idle)
  | .reread c _ _ => some ((s.settle c).goto w .idle)
  | _ => none

/-- The `delete` of `invalidate_subscription_cache`. -/
def invalidate (w : Nat) : Option CacheRun :=
  match s.task w with
  | .invalidating c => some (((s.setCache none s.version).settle c).goto w .idle)
  | _ => none

/-- A writer's commit. -/
def begin (w : Nat) (db : BillingDb) (p : Nat → CacheTask) : Option CacheRun :=
  match s.task w with
  | .idle => some ((s.commit db).goto w (p (s.version + 1)))
  | _ => none

/-- One step.  A task may fail or crash at any call, and the cached row may expire. -/
def step : CacheAct → Option CacheRun
  | .get w => s.get w
  | .fetch w => s.fetch w
  | .fill w => s.fill w
  | .commitWarm w db => s.begin w db .warming
  | .commitInvalidate w db => s.begin w db .invalidating
  | .reread w => s.reread w
  | .warm w => s.warm w
  | .warmFailed w => s.warmFailed w
  | .invalidate w => s.invalidate w
  | .fail w => some (s.goto w .idle)
  | .expire => some (s.setCache none s.version)

/-- An organization with an empty cache. -/
def initial (st : UsageState) : CacheRun :=
  ⟨{ st with cache := none }, 0, fun _ => st.db.subscription, 0, 0, fun _ => .idle, []⟩

/-! ## One call at a time

Undisturbed, the steps of a task are the calls of `UsageState`. -/

/-- What the steps of one cached read do to the organization, and what it returns. -/
def readAlone (w : Nat) : Option (UsageState × Option (Option Subscription)) :=
  match s.get w with
  | none => none
  | some s₁ =>
    match s₁.task w with
    | .missed _ =>
      (s₁.fetch w).bind fun s₂ =>
        match s₂.task w with
        | .fetched _ _ _ => (s₂.fill w).map fun s₃ => (s₃.st, s₃.reads.getLast?.map CachedRead.row)
        | _ => some (s₂.st, s₂.reads.getLast?.map CachedRead.row)
    | _ => some (s₁.st, s₁.reads.getLast?.map CachedRead.row)

/-- **The steps of a cached read are `_get_subscription_cached`.** -/
theorem readAlone_eq {s : CacheRun} {w : Nat} (hidle : s.task w = .idle) :
    s.readAlone w =
      some (s.st.getSubscriptionCached.1, some s.st.getSubscriptionCached.2) := by
  unfold readAlone get UsageState.getSubscriptionCached
  rw [hidle]
  cases hc : s.st.cache with
  | some sub => simp [respond, hidle]
  | none =>
    cases hdb : s.st.db.subscription with
    | none => simp [fetch, goto, respond, hdb]
    | some sub => simp [fetch, fill, goto, respond, setCache, hdb]

/-- **The steps of a warm are `_warm_sub_cache`.** -/
theorem warm_eq {s : CacheRun} {w c : Nat} (ctx : HandlerCtx) (hw : s.task w = .warming c) :
    (if ctx.cacheWarmed then (s.reread w).bind fun s₁ => s₁.warm w else s.warmFailed w).map
      (fun s' => s'.st) = some (s.st.warmSubCache ctx) := by
  unfold UsageState.warmSubCache
  split
  · simp [reread, warm, hw, goto, setCache, settle]
  · simp [warmFailed, hw, goto, settle]

/-! ## The property and the condition -/

/-- **No read is staler than a completed write.**  Each finished read returned the row of a
commit at least as new as the commit of every writer that had returned when it started. -/
def ReadsFresh : Prop :=
  ∀ r ∈ s.reads, ∃ v, r.floor ≤ v ∧ v ≤ s.version ∧ s.history v = r.row

/-- **The condition on a step.**  The row that a fill or a warm puts into the cache was read
after the commits of all the writers that have returned, and a warm that fails leaves no
row older than its own commit. -/
def InOrder : CacheAct → Prop
  | .fill w => ∀ floor sub v, s.task w = .fetched floor sub v → s.settled ≤ v
  | .warm w => ∀ c row v, s.task w = .reread c row v → row = none ∨ s.settled ≤ v
  | .warmFailed w => ∀ c, (s.task w = .warming c ∨ ∃ row v, s.task w = .reread c row v) →
      s.st.cache = none ∨ c ≤ s.cachedAt
  | _ => True

/-- What a task holds was read or committed at the versions it says. -/
def TaskOk (version : Nat) (history : Nat → Option Subscription) : CacheTask → Prop
  | .idle => True
  | .missed floor => floor ≤ version
  | .fetched floor sub v => floor ≤ v ∧ v ≤ version ∧ history v = some sub
  | .warming c => c ≤ version
  | .reread c row v => c ≤ v ∧ v ≤ version ∧ history v = row
  | .invalidating c => c ≤ version

/-- **What a run in order keeps.** -/
structure Fresh (s : CacheRun) : Prop where
  current : s.history s.version = s.st.db.subscription
  settled : s.settled ≤ s.version
  cached : ∀ sub, s.st.cache = some sub →
    s.settled ≤ s.cachedAt ∧ s.cachedAt ≤ s.version ∧ s.history s.cachedAt = some sub
  tasks : ∀ w, TaskOk s.version s.history (s.task w)
  reads : s.ReadsFresh

variable {s} {s' : CacheRun} {w : Nat} {p : CacheTask}

theorem fresh_initial (st : UsageState) : Fresh (initial st) where
  current := rfl
  settled := le_refl 0
  cached := by
    intro sub h
    cases h
  tasks := fun _ => trivial
  reads := fun _ hr => absurd hr List.not_mem_nil

theorem Fresh.goto (h : Fresh s) (hp : TaskOk s.version s.history p) : Fresh (s.goto w p) := by
  refine ⟨h.current, h.settled, h.cached, ?_, h.reads⟩
  exact (Function.forall_update_iff s.task (fun _ t => TaskOk s.version s.history t)).mpr
    ⟨hp, fun v _ => h.tasks v⟩

theorem Fresh.respond (h : Fresh s) {floor v : Nat} {row : Option Subscription} (hle : floor ≤ v)
    (hv : v ≤ s.version) (hrow : s.history v = row) : Fresh (s.respond floor row) := by
  refine ⟨h.current, h.settled, h.cached, h.tasks, fun r hr => ?_⟩
  rcases List.mem_append.mp hr with hr | hr
  · exact h.reads r hr
  · obtain rfl := List.mem_singleton.mp hr
    exact ⟨v, hle, hv, hrow⟩

theorem Fresh.setCache (h : Fresh s) {row : Option Subscription} {v : Nat}
    (hv : ∀ sub, row = some sub → s.settled ≤ v ∧ v ≤ s.version ∧ s.history v = row) :
    Fresh (s.setCache row v) :=
  ⟨h.current, h.settled, fun sub hsub => by
    obtain ⟨h₁, h₂, h₃⟩ := hv sub hsub
    exact ⟨h₁, h₂, h₃.trans hsub⟩, h.tasks, h.reads⟩

theorem Fresh.settle (h : Fresh s) {c : Nat} (hc : c ≤ s.version)
    (hcache : s.st.cache = none ∨ c ≤ s.cachedAt) : Fresh (s.settle c) := by
  refine ⟨h.current, max_le h.settled hc, fun sub hsub => ?_, h.tasks, h.reads⟩
  obtain ⟨h₁, h₂, h₃⟩ := h.cached sub hsub
  rcases hcache with hnone | hle
  · exact absurd (hnone.symm.trans hsub) (Option.some_ne_none sub).symm
  · exact ⟨max_le h₁ hle, h₂, h₃⟩

/-- An earlier row is the same after another commit. -/
theorem history_commit {db : BillingDb} {v : Nat} (hv : v ≤ s.version) :
    (s.commit db).history v = s.history v :=
  Function.update_of_ne (by omega) _ _

theorem TaskOk.commit {db : BillingDb} (h : TaskOk s.version s.history p) :
    TaskOk (s.commit db).version (s.commit db).history p := by
  have hmono : ∀ {v : Nat}, v ≤ s.version → v ≤ (s.commit db).version := fun hv =>
    le_trans hv (Nat.le_succ _)
  cases p with
  | idle => trivial
  | missed floor => exact hmono h
  | fetched floor sub v =>
    obtain ⟨h₁, h₂, h₃⟩ := h
    exact ⟨h₁, hmono h₂, (history_commit h₂).trans h₃⟩
  | warming c => exact hmono h
  | reread c row v =>
    obtain ⟨h₁, h₂, h₃⟩ := h
    exact ⟨h₁, hmono h₂, (history_commit h₂).trans h₃⟩
  | invalidating c => exact hmono h

theorem Fresh.commit (h : Fresh s) (db : BillingDb) : Fresh (s.commit db) where
  current := Function.update_self ..
  settled := le_trans h.settled (Nat.le_succ _)
  cached := by
    intro sub hsub
    obtain ⟨h₁, h₂, h₃⟩ := h.cached sub hsub
    exact ⟨h₁, le_trans h₂ (Nat.le_succ _), (history_commit h₂).trans h₃⟩
  tasks := fun w => (h.tasks w).commit
  reads := by
    intro r hr
    obtain ⟨v, h₁, h₂, h₃⟩ := h.reads r hr
    exact ⟨v, h₁, le_trans h₂ (Nat.le_succ _), (history_commit h₂).trans h₃⟩

theorem fresh_begin (h : Fresh s) {db : BillingDb} {p : Nat → CacheTask}
    (hp : ∀ c history, TaskOk c history (p c)) (hs : s.begin w db p = some s') : Fresh s' := by
  unfold begin at hs
  split at hs
  · cases hs
    exact (h.commit db).goto (hp _ _)
  · cases hs

/-! ## The steps of a reader -/

theorem fresh_get (h : Fresh s) (hs : s.get w = some s') : Fresh s' := by
  unfold get at hs
  split at hs
  · split at hs
    next sub hsub =>
      cases hs
      obtain ⟨h₁, h₂, h₃⟩ := h.cached sub hsub
      exact h.respond h₁ h₂ h₃
    · cases hs
      exact h.goto h.settled
  · cases hs

theorem fresh_fetch (h : Fresh s) (hs : s.fetch w = some s') : Fresh s' := by
  unfold fetch at hs
  split at hs
  next floor hw =>
    have hfloor : TaskOk s.version s.history (.missed floor) := hw ▸ h.tasks w
    split at hs
    next hnone =>
      cases hs
      exact (h.respond hfloor (le_refl _) (h.current.trans hnone)).goto trivial
    next sub hsub =>
      cases hs
      exact h.goto ⟨hfloor, le_refl _, h.current.trans hsub⟩
  · cases hs

theorem fresh_fill (h : Fresh s) (hok : s.InOrder (.fill w)) (hs : s.fill w = some s') :
    Fresh s' := by
  unfold fill at hs
  split at hs
  next floor sub v hw =>
    obtain ⟨h₁, h₂, h₃⟩ : TaskOk s.version s.history (.fetched floor sub v) := hw ▸ h.tasks w
    cases hs
    have hset : Fresh (s.setCache (some sub) v) :=
      h.setCache fun _ _ => ⟨hok floor sub v hw, h₂, h₃⟩
    exact (hset.respond h₁ h₂ h₃).goto trivial
  · cases hs

/-! ## The steps of a writer -/

theorem fresh_reread (h : Fresh s) (hs : s.reread w = some s') : Fresh s' := by
  unfold reread at hs
  split at hs
  next c hw =>
    have hc : TaskOk s.version s.history (.warming c) := hw ▸ h.tasks w
    cases hs
    exact h.goto ⟨hc, le_refl _, h.current⟩
  · cases hs

theorem fresh_warm (h : Fresh s) (hok : s.InOrder (.warm w)) (hs : s.warm w = some s') :
    Fresh s' := by
  unfold warm at hs
  split at hs
  next c row v hw =>
    obtain ⟨h₁, h₂, h₃⟩ : TaskOk s.version s.history (.reread c row v) := hw ▸ h.tasks w
    cases hs
    have hset : Fresh (s.setCache row v) := by
      refine h.setCache fun sub hsub => ⟨?_, h₂, h₃⟩
      exact (hok c row v hw).resolve_left (hsub ▸ Option.some_ne_none sub)
    -- the row set was re-read after the writer's own commit
    exact (hset.settle (le_trans h₁ h₂) (Or.inr h₁)).goto trivial
  · cases hs

theorem fresh_warmFailed (h : Fresh s) (hok : s.InOrder (.warmFailed w))
    (hs : s.warmFailed w = some s') : Fresh s' := by
  unfold warmFailed at hs
  split at hs
  next c hw =>
    have hc : TaskOk s.version s.history (.warming c) := hw ▸ h.tasks w
    cases hs
    exact (h.settle hc (hok c (Or.inl hw))).goto trivial
  next c row v hw =>
    obtain ⟨h₁, h₂, -⟩ : TaskOk s.version s.history (.reread c row v) := hw ▸ h.tasks w
    cases hs
    exact (h.settle (le_trans h₁ h₂) (hok c (Or.inr ⟨row, v, hw⟩))).goto trivial
  · cases hs

theorem fresh_emptyCache (h : Fresh s) : Fresh (s.setCache none s.version) :=
  h.setCache fun _ hsub => by cases hsub

theorem fresh_invalidate (h : Fresh s) (hs : s.invalidate w = some s') : Fresh s' := by
  unfold invalidate at hs
  split at hs
  next c hw =>
    have hc : TaskOk s.version s.history (.invalidating c) := hw ▸ h.tasks w
    cases hs
    exact ((fresh_emptyCache h).settle hc (Or.inl rfl)).goto trivial
  · cases hs

/-- One step in order keeps everything fresh. -/
theorem fresh_step {a : CacheAct} (h : Fresh s) (hok : s.InOrder a) (hs : s.step a = some s') :
    Fresh s' := by
  cases a with
  | get w => exact fresh_get h hs
  | fetch w => exact fresh_fetch h hs
  | fill w => exact fresh_fill h hok hs
  | commitWarm w db => exact fresh_begin (p := .warming) h (fun c _ => le_refl c) hs
  | commitInvalidate w db => exact fresh_begin (p := .invalidating) h (fun c _ => le_refl c) hs
  | reread w => exact fresh_reread h hs
  | warm w => exact fresh_warm h hok hs
  | warmFailed w => exact fresh_warmFailed h hok hs
  | invalidate w => exact fresh_invalidate h hs
  | fail w =>
    cases hs
    exact h.goto trivial
  | expire =>
    cases hs
    exact fresh_emptyCache h

/-- **Reads are never staler than a completed write, in order.**  In every run whose steps
are in order, each cached read returns the row of a commit at least as new as that of every
writer that had returned when the read started. -/
theorem reads_fresh {st : UsageState}
    (hreach : GuardedRun.Reach (fun s a => s.step a) InOrder (initial st) s) : s.ReadsFresh := by
  have hfresh : Fresh s :=
    hreach.invariant (fresh_initial st) fun _ _ _ h hok hs => fresh_step h hok hs
  exact hfresh.reads

/-! ## Runs in and out of order -/

/-- A HOBBY row. -/
def hobbySub : Subscription := ⟨"org", .hobby, .active, none, none, 0, DateTime.days 30, none⟩

/-- The row of the same organization on Pro. -/
def proSub : Subscription := { hobbySub with plan := .pro }

/-- The row of the same organization on Startup. -/
def startupSub : Subscription := { hobbySub with plan := .startup }

/-- The rows of an organization with that subscription. -/
def withRow (sub : Subscription) : BillingDb := BillingDb.empty.putSubscription sub

/-- An organization on HOBBY. -/
def onHobby : CacheRun := initial ⟨withRow hobbySub, none, ⟨fun _ _ => none, fun _ => none⟩⟩

/-- The last read, the number of commits, and the row now. -/
def readView (s : CacheRun) : Option (CachedRead × Nat × Option Subscription) :=
  s.reads.getLast?.map fun r => (r, s.version, s.history s.version)

/-- A last read that started when the last commit had returned and missed its row is stale. -/
theorem not_readsFresh_of_view {n : Nat} {row row' : Option Subscription}
    (hview : readView s = some (⟨n, row⟩, n, row')) (hne : row ≠ row') : ¬ s.ReadsFresh := by
  intro h
  obtain ⟨r, hr, heq⟩ := Option.map_eq_some_iff.mp hview
  simp only [Prod.mk.injEq] at heq
  obtain ⟨rfl, hversion, hrow⟩ := heq
  obtain ⟨v, hle, hv, hold⟩ := h _ (List.mem_of_getLast? hr)
  obtain rfl : v = s.version := le_antisymm hv (hversion ▸ hle)
  exact hne (hold.symm.trans hrow)

/-- The state after an action that is enabled. -/
def after (s : CacheRun) (a : CacheAct) : CacheRun := (s.step a).getD s

/-- A writer has committed Pro and warmed the cache. -/
def warmedPro : CacheRun :=
  after (after (after onHobby (.commitWarm 0 (withRow proSub))) (.reread 0)) (.warm 0)

theorem reach_warmedPro : GuardedRun.Reach (fun s a => s.step a) InOrder onHobby warmedPro := by
  let s₁ := after onHobby (.commitWarm 0 (withRow proSub))
  have h₁ : GuardedRun.Reach (fun s a => s.step a) InOrder onHobby s₁ :=
    .step (a := .commitWarm 0 (withRow proSub)) .initial trivial rfl
  have h₂ : GuardedRun.Reach (fun s a => s.step a) InOrder onHobby (after s₁ (.reread 0)) :=
    .step (a := .reread 0) h₁ trivial rfl
  exact .step (a := .warm 0) h₂ (fun _ _ v _ => Or.inr (Nat.zero_le v)) rfl

/-- A read after the write returns what was written. -/
theorem reads_fresh_warmed : (after warmedPro (.get 1)).ReadsFresh ∧
    readView (after warmedPro (.get 1)) = some (⟨1, some proSub⟩, 1, some proSub) := by
  refine ⟨reads_fresh (.step (a := .get 1) reach_warmedPro trivial rfl), ?_⟩
  decide +kernel

/-- **Two runs with a stale read.**  A reader fetches the HOBBY row, a writer commits Pro,
warms the cache and returns, and then the reader fills the cache with HOBBY; and a writer that
has re-read Pro for the cache sets it after another writer has committed, warmed and
returned Startup. -/
theorem stale_reads :
    (∃ s, GuardedRun.run (fun s a => s.step a) onHobby
        [.get 1, .fetch 1, .commitWarm 0 (withRow proSub), .reread 0, .warm 0, .fill 1,
          .get 2] = some s ∧
      GuardedRun.Reach (fun s a => s.step a) GuardedRun.Always onHobby s ∧ ¬ s.ReadsFresh) ∧
    ∃ s, GuardedRun.run (fun s a => s.step a) onHobby
        [.commitWarm 0 (withRow proSub), .reread 0, .commitWarm 1 (withRow startupSub),
          .reread 1, .warm 1, .warm 0, .get 2] = some s ∧
      GuardedRun.Reach (fun s a => s.step a) GuardedRun.Always onHobby s ∧ ¬ s.ReadsFresh := by
  constructor
  · have hview : (GuardedRun.run (fun s a => s.step a) onHobby
        [.get 1, .fetch 1, .commitWarm 0 (withRow proSub), .reread 0, .warm 0, .fill 1,
          .get 2]).bind readView =
        some (⟨1, some hobbySub⟩, 1, some proSub) := by decide +kernel
    obtain ⟨s, hrun, hs⟩ := Option.bind_eq_some_iff.mp hview
    exact ⟨s, hrun, GuardedRun.reach_of_run hrun, not_readsFresh_of_view hs (by decide)⟩
  · have hview : (GuardedRun.run (fun s a => s.step a) onHobby
        [.commitWarm 0 (withRow proSub), .reread 0, .commitWarm 1 (withRow startupSub),
          .reread 1, .warm 1, .warm 0, .get 2]).bind readView =
        some (⟨2, some proSub⟩, 2, some startupSub) := by decide +kernel
    obtain ⟨s, hrun, hs⟩ := Option.bind_eq_some_iff.mp hview
    exact ⟨s, hrun, GuardedRun.reach_of_run hrun, not_readsFresh_of_view hs (by decide)⟩

end CacheRun
end PandaProbe
