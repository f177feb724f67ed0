import PandaProbe.GuardedRun
import PandaProbe.RowTransactions
import PandaProbe.UsageService

/-! # Concurrent syncs of one usage row

`sync_to_database` takes a snapshot of the Redis counters, reads the usage row and writes the
snapshot into it, in separate statements and with nothing that orders two calls.  The counters in
Redis only grow here, so a snapshot says how old it is; the row does not remember which snapshot
it holds.

A call whose snapshot is older than one that landed since it was taken writes the counters back.
`counters_never_decrease` is the main result: that is the only way a counter is lost.
-/
namespace PandaProbe
open GuardedRun RowTransactions

/-- The three counters of a period. -/
abbrev Counts := UsageCategory → Int

/-- What a call of `upsert_usage_counters` carries: the snapshot, and the row it has loaded. -/
structure Sync where
  counts : Counts
  loaded : Option UsageRecord

namespace Sync
variable (orgId : UUID) (start stop : DateTime) (l : Sync)

/-- The columns the flush sets: all of a new row, those of a loaded row that are assigned another
value. -/
def sets (c : UsageCategory) : Bool :=
  match l.loaded with
  | none => true
  | some u => u.count c ≠ l.counts c

/-- The flush: an INSERT, which the unique key refuses if the row is there by now, or an UPDATE of
the columns that changed. -/
def write (row : Option UsageRecord) : Option (Option UsageRecord) :=
  match l.loaded, row with
  | none, none => some (some { UsageRecord.fresh orgId start stop with count := l.counts })
  | none, some _ => none
  | some _, row =>
    some (row.map (fun u => { u with count := fun c => if l.sets c then l.counts c else u.count c }))

/-- `upsert_usage_counters`, statement by statement. -/
def upsert : Update (Option UsageRecord) Counts Sync where
  load _ counts row := ⟨counts, row⟩
  issues l := UsageCategory.all.any l.sets
  write := write orgId start stop

end Sync

/-- Redis and the usage row, the snapshots the calls hold, and for each call the snapshots that
others have committed since it took its own. -/
structure SyncState where
  redis : UsageStore
  cell : Cell (Option UsageRecord) Sync
  snapshot : Nat → Option Counts
  landed : Nat → List Counts

/-- Usage is counted, or a call goes on. -/
inductive SyncAct
  | increment (c : UsageCategory) (n : Nat)
  | readRedis (w : Nat)
  | readRow (w : Nat)
  | flush (w : Nat)
  | commit (w : Nat)
  | rollback (w : Nat)

/-- No counter is lower than before. -/
def Raises (row row' : Option UsageRecord) : Prop :=
  ∀ u, row = some u → ∃ u', row' = some u' ∧ ∀ c, u.count c ≤ u'.count c

/-- The row holds at least these counters. -/
def Holds (row : Option UsageRecord) (counts : Counts) : Prop :=
  ∃ u, row = some u ∧ ∀ c, counts c ≤ u.count c

namespace SyncState
variable (orgId : UUID) (start stop : DateTime) (s : SyncState)

/-- `HGETALL` finds nothing. -/
def hashEmpty : Bool :=
  UsageCategory.all.all (fun c => (s.redis.hash (usageKey orgId start) c).isNone)

/-- The snapshot of a call lands: every other call that is under way has missed it. -/
def land (w : Nat) : Nat → List Counts :=
  fun v => (s.snapshot w).toList ++ s.landed v

/-- `HGETALL`: nothing has landed since. -/
def takeSnapshot (w : Nat) : SyncState :=
  { s with
    snapshot := Function.update s.snapshot w (some (s.redis.value (usageKey orgId start)))
    landed := Function.update s.landed w [] }

/-- One step.  A call that finds no counters returns at once. -/
def step : SyncAct → Option SyncState
  | .increment c n => some { s with redis := (s.redis.hincrby (usageKey orgId start) c n).1 }
  | .readRedis w =>
    match s.snapshot w with
    | some _ => none
    | none =>
      if s.hashEmpty orgId start then some s
      else some (s.takeSnapshot orgId start w)
  | .readRow w =>
    (s.snapshot w).bind (fun counts =>
      (s.cell.step (Sync.upsert orgId start stop) (.load w counts)).map
        (fun cell => { s with cell := cell }))
  | .flush w =>
    (s.cell.step (Sync.upsert orgId start stop) (.flush w)).map
      (fun cell => { s with cell := cell })
  | .commit w =>
    (s.cell.step (Sync.upsert orgId start stop) (.commit w)).map
      (fun cell => { s with cell := cell, landed := s.land w })
  | .rollback w =>
    (s.cell.step (Sync.upsert orgId start stop) (.rollback w)).map
      (fun cell => { s with cell := cell })

/-- No call has begun. -/
def initial (redis : UsageStore) (row : Option UsageRecord) : SyncState :=
  ⟨redis, .initial row, fun _ => none, fun _ => []⟩

/-- When a call updates the row, no newer value of a column it sets has landed since it took its
snapshot. -/
def InTurn : SyncAct → Prop
  | .flush w => ∀ l, s.cell.task w = .loaded l → ∀ u, l.loaded = some u →
      ∀ counts ∈ s.landed w, ∀ c, u.count c ≠ l.counts c → counts c ≤ l.counts c
  | _ => True

end SyncState

/-! ## One statement -/

theorem Raises.refl (row : Option UsageRecord) : Raises row row :=
  fun u h => ⟨u, h, fun _ => le_refl _⟩

theorem Raises.trans {a b c : Option UsageRecord} (h : Raises a b) (h' : Raises b c) :
    Raises a c := by
  intro u hu
  obtain ⟨v, hv, huv⟩ := h u hu
  obtain ⟨w, hw, hvw⟩ := h' v hv
  exact ⟨w, hw, fun c => le_trans (huv c) (hvw c)⟩

theorem Holds.raises {row row' : Option UsageRecord} {n : Counts} (h : Holds row n)
    (h' : Raises row row') : Holds row' n := by
  obtain ⟨u, hu, hn⟩ := h
  obtain ⟨u', hu', hle⟩ := h' u hu
  exact ⟨u', hu', fun c => le_trans (hn c) (hle c)⟩

namespace Sync
variable {orgId : UUID} {start stop : DateTime} {l : Sync} {row row' : Option UsageRecord}

/-- The UPDATE overwrites nothing larger. -/
def Covers (l : Sync) (row : Option UsageRecord) : Prop :=
  ∀ u₀, l.loaded = some u₀ → ∀ u, row = some u →
    ∀ c, u₀.count c ≠ l.counts c → u.count c ≤ l.counts c

/-- What a statement leaves: a new row with the snapshot, or the row with the changed columns. -/
theorem write_cases (h : l.write orgId start stop row = some row') :
    (l.loaded = none ∧ row = none ∧
      row' = some { UsageRecord.fresh orgId start stop with count := l.counts }) ∨
    ∃ u₀, l.loaded = some u₀ ∧ row' = row.map (fun u => { u with
      count := fun c => if u₀.count c ≠ l.counts c then l.counts c else u.count c }) := by
  obtain ⟨counts, loaded⟩ := l
  cases loaded with
  | none =>
    cases row with
    | none => exact .inl ⟨rfl, rfl, (Option.some.inj h).symm⟩
    | some u => cases h
  | some u₀ =>
    refine .inr ⟨u₀, rfl, ?_⟩
    simpa [write, sets] using h.symm

theorem Covers.raises (hok : l.Covers row) (h : l.write orgId start stop row = some row') :
    Raises row row' := by
  intro u hu
  rcases write_cases h with ⟨-, hrow, -⟩ | ⟨u₀, hloaded, rfl⟩
  · rw [hrow] at hu
    cases hu
  · subst hu
    refine ⟨_, rfl, fun c => ?_⟩
    show u.count c ≤ if u₀.count c ≠ l.counts c then l.counts c else u.count c
    split
    next hne => exact hok u₀ hloaded u rfl c hne
    · exact le_refl _

/-- The snapshot is in the row after its statement, also in the columns that are not set: these
had the value when they were read, and no counter has gone down since. -/
theorem holds_of_write (hloaded : Raises l.loaded row)
    (h : l.write orgId start stop row = some row') : Holds row' l.counts := by
  rcases write_cases h with ⟨-, -, rfl⟩ | ⟨u₀, hu₀, rfl⟩
  · exact ⟨_, rfl, fun _ => le_refl _⟩
  · obtain ⟨u, rfl, hle⟩ := hloaded u₀ hu₀
    refine ⟨_, rfl, fun c => ?_⟩
    show l.counts c ≤ if u₀.count c ≠ l.counts c then l.counts c else u.count c
    split
    · exact le_refl _
    next heq =>
      rw [not_ne_iff] at heq
      rw [← heq]
      exact hle c

theorem holds_of_skip (hloaded : Raises l.loaded row)
    (h : (upsert orgId start stop).issues l = false) : Holds row l.counts := by
  have hsets : ∀ c, l.sets c = false := by
    intro c
    have := List.any_eq_false.mp h c (UsageCategory.mem_all c)
    simpa using this
  obtain ⟨counts, loaded⟩ := l
  cases loaded with
  | none => exact absurd (hsets .traces) (by simp [sets])
  | some u₀ =>
    obtain ⟨u, hu, hle⟩ := hloaded u₀ rfl
    refine ⟨u, hu, fun c => ?_⟩
    have heq : u₀.count c = counts c := by simpa [sets] using hsets c
    show counts c ≤ u.count c
    rw [← heq]
    exact hle c

/-- A call that has read the row knows that it has not gone down, and one that has committed that
its snapshot is there. -/
theorem keeps_upsert : Cell.Keeps (upsert orgId start stop) Covers
    (fun _ l row => Raises l.loaded row) (fun _ l row => Raises l.loaded row)
    (fun _ l row => Holds row l.counts) where
  load _ _ row := Raises.refl row
  flush _ _ _ h _ := h
  commit _ _ _ _ h _ _ hw := holds_of_write h hw
  skip _ _ _ h hissues := holds_of_skip h hissues
  stable _ _ _ _ _ _ _ _ _ hok hw :=
    ⟨fun h => h.trans (hok.raises hw), fun h => h.trans (hok.raises hw),
      fun h => h.raises (hok.raises hw)⟩

/-- **A call that runs alone** leaves what `upsert_usage_counters` leaves. -/
theorem upsert_alone (db : BillingDb) (w : Nat) (n : Counts) :
    let l := (upsert orgId start stop).load w n (db.usage start)
    (if (upsert orgId start stop).issues l then
        (upsert orgId start stop).write l (db.usage start)
      else some (db.usage start)) =
      some ((db.upsertUsageCounters orgId start stop n).usage start) := by
  intro l
  rw [BillingDb.upsertUsageCounters_usage, if_pos rfl]
  cases hu : db.usage start with
  | none =>
    have hl : l = ⟨n, none⟩ := by rw [← hu]; rfl
    rw [hl]
    rfl
  | some u =>
    have hl : l = ⟨n, some u⟩ := by rw [← hu]; rfl
    have hsets : ∀ c, (if l.sets c then n c else u.count c) = n c := by
      intro c
      by_cases hc : u.count c = n c
      · simp [hl, sets, hc]
      · simp [hl, sets, hc]
    rw [hl] at hsets ⊢
    split
    · simp only [upsert, write, Option.map_some, hsets, Option.getD_some]
    next hissues =>
      -- nothing is set because every column has its value already
      have hsame : u.count = n := by
        funext c
        have hc : u.count c = n c := by
          simpa [upsert, sets] using
            List.any_eq_false.mp (Bool.eq_false_of_not_eq_true hissues) c (UsageCategory.mem_all c)
        exact hc
      rw [← hsame]
      rfl

end Sync

/-! ## The runs -/

namespace SyncState
variable {orgId : UUID} {start stop : DateTime} {s s' : SyncState}

/-- The counters of Redis. -/
def counters (orgId : UUID) (start : DateTime) (s : SyncState) : Counts :=
  s.redis.value (usageKey orgId start)

/-- The invariant of the runs in turn.  The row is never above Redis, and above a snapshot that
is still to be written only by what has landed since it was taken. -/
structure Inv (orgId : UUID) (start stop : DateTime) (s : SyncState) : Prop where
  locked : s.cell.Locked (Sync.upsert orgId start stop) Sync.Covers
  known : ∀ w, Cell.Known (fun _ l row => Raises l.loaded row) (fun _ l row => Raises l.loaded row)
    (fun _ l row => Holds row l.counts) w s.cell.row (s.cell.task w)
  own : ∀ w l, s.cell.task w = .loaded l ∨ s.cell.task w = .flushed l →
    s.snapshot w = some l.counts
  stored : ∀ u, s.cell.row = some u → ∀ c, u.count c ≤ s.counters orgId start c
  taken : ∀ w n, s.snapshot w = some n → ∀ c, n c ≤ s.counters orgId start c
  missed : ∀ w n, s.snapshot w = some n → ∀ u, s.cell.row = some u → ∀ c,
    u.count c ≤ n c ∨ ∃ m ∈ s.landed w, u.count c ≤ m c
  landed : ∀ w, ∀ m ∈ s.landed w, Holds s.cell.row m

theorem inv_initial {redis : UsageStore} {row : Option UsageRecord}
    (h : ∀ u, row = some u → ∀ c, u.count c ≤ redis.value (usageKey orgId start) c) :
    Inv orgId start stop (initial redis row) where
  locked := Cell.locked_initial row
  known _ := trivial
  own _ _ h := by rcases h with h | h <;> cases h
  stored := h
  taken _ _ h := by cases h
  missed _ _ h := by cases h
  landed _ _ h := by cases h

/-- A statement in turn overwrites nothing larger: what the row holds was in Redis when the
snapshot was taken, or has landed since. -/
theorem Inv.covers (h : Inv orgId start stop s) {w : Nat} (ha : s.InTurn (.flush w)) :
    s.cell.InTurn (X := Counts) Sync.Covers (.flush w) := by
  intro l hl u₀ hu₀ u hu c hc
  rcases h.missed w l.counts (h.own w l (.inl hl)) u hu c with hle | ⟨m, hm, hle⟩
  · exact hle
  · exact le_trans hle (ha l hl u₀ hu₀ m hm c hc)

/-- What a commit puts into a column was there before, or is the snapshot's value. -/
theorem count_of_write {l : Sync} {row : Option UsageRecord} {u' : UsageRecord}
    (h : l.write orgId start stop row = some (some u')) (c : UsageCategory) :
    u'.count c = l.counts c ∨ ∃ u, row = some u ∧ u'.count c = u.count c := by
  rcases Sync.write_cases h with ⟨-, -, hrow⟩ | ⟨u₀, -, hrow⟩
  · cases hrow
    exact .inl rfl
  · cases row with
    | none => cases hrow
    | some u =>
      cases hrow
      show (if u₀.count c ≠ l.counts c then l.counts c else u.count c) = l.counts c ∨ _
      split
      · exact .inl rfl
      next heq => exact .inr ⟨u, rfl, if_neg heq⟩

variable {a : Act Counts} {cell : Cell (Option UsageRecord) Sync}

/-- **A statement in turn raises the row.** -/
theorem Inv.raises (h : Inv orgId start stop s)
    (hs : s.cell.step (Sync.upsert orgId start stop) a = some cell) :
    Raises s.cell.row cell.row := by
  rcases Cell.step_row h.locked hs with hrow | ⟨w, l, -, -, -, hwrite, hok⟩
  · rw [hrow]
    exact Raises.refl _
  · exact hok.raises hwrite

/-- Where the value of a column comes from: it was there, or the call that commits put it. -/
theorem Inv.count_from (h : Inv orgId start stop s)
    (hs : s.cell.step (Sync.upsert orgId start stop) a = some cell) {u' : UsageRecord}
    (hu' : cell.row = some u') (c : UsageCategory) :
    (∃ u, s.cell.row = some u ∧ u'.count c = u.count c) ∨
      ∃ w l, a = .commit w ∧ s.cell.task w = .flushed l ∧ u'.count c = l.counts c := by
  rcases Cell.step_row h.locked hs with hrow | ⟨w, l, ha, htask, -, hwrite, -⟩
  · exact .inl ⟨u', hrow ▸ hu', rfl⟩
  · rw [hu'] at hwrite
    rcases count_of_write hwrite c with hc | hc
    · exact .inr ⟨w, l, ha, htask, hc⟩
    · exact .inl hc

/-- A call goes on.  A snapshot that lands is recorded for every call. -/
theorem Inv.goes_on (h : Inv orgId start stop s) (ha : s.cell.InTurn Sync.Covers a)
    (hs : s.cell.step (Sync.upsert orgId start stop) a = some cell)
    (hload : ∀ w n, a = .load w n → s.snapshot w = some n) {landed : Nat → List Counts}
    (hkeep : ∀ w, ∀ m ∈ s.landed w, m ∈ landed w)
    (hcommit : ∀ w l, a = .commit w → s.cell.task w = .flushed l → ∀ v, l.counts ∈ landed v)
    (hholds : ∀ w, ∀ m ∈ landed w, m ∈ s.landed w ∨ Holds cell.row m) :
    Inv orgId start stop { s with cell := cell, landed := landed } where
  locked := Cell.locked_step h.locked ha hs
  known := Cell.known_step Sync.keeps_upsert h.locked h.known ha hs
  own w l hl := by
    rcases Cell.carried_step hs hl with hl | ⟨n, rfl, rfl⟩
    · exact h.own w l hl
    · exact hload w n rfl
  stored u' hu' c := by
    rcases h.count_from hs hu' c with ⟨u, hu, hc⟩ | ⟨w, l, -, htask, hc⟩
    · exact hc ▸ h.stored u hu c
    · exact hc ▸ h.taken w l.counts (h.own w l (.inr htask)) c
  taken := h.taken
  missed w n hn u' hu' c := by
    rcases h.count_from hs hu' c with ⟨u, hu, hc⟩ | ⟨v, l, hv, htask, hc⟩
    · rcases h.missed w n hn u hu c with hle | ⟨m, hm, hle⟩
      · exact .inl (hc ▸ hle)
      · exact .inr ⟨m, hkeep w m hm, hc ▸ hle⟩
    · exact .inr ⟨l.counts, hcommit v l hv htask w, le_of_eq hc⟩
  landed w m hm := by
    rcases hholds w m hm with hm | hm
    · exact (h.landed w m hm).raises (h.raises hs)
    · exact hm

/-- The counters of Redis grow. -/
theorem counters_le_increment (c c' : UsageCategory) (n : Nat) :
    s.counters orgId start c' ≤
      (s.redis.hincrby (usageKey orgId start) c n).1.value (usageKey orgId start) c' := by
  simp only [UsageStore.hincrby, UsageStore.value_hset]
  split
  next h =>
    rw [h.2]
    exact Int.le_add_of_nonneg_right (Int.natCast_nonneg n)
  · exact le_refl _

theorem Inv.increment (h : Inv orgId start stop s) (c : UsageCategory) (n : Nat) :
    Inv orgId start stop
      { s with redis := (s.redis.hincrby (usageKey orgId start) c n).1 } where
  locked := h.locked
  known := h.known
  own := h.own
  stored u hu c' := le_trans (h.stored u hu c') (counters_le_increment c c' n)
  taken w m hm c' := le_trans (h.taken w m hm c') (counters_le_increment c c' n)
  missed := h.missed
  landed := h.landed

theorem takeSnapshot_ne {v w : Nat} (h : v ≠ w) :
    (s.takeSnapshot orgId start w).snapshot v = s.snapshot v ∧
      (s.takeSnapshot orgId start w).landed v = s.landed v :=
  ⟨Function.update_of_ne h .., Function.update_of_ne h ..⟩

theorem takeSnapshot_self (w : Nat) :
    (s.takeSnapshot orgId start w).snapshot w = some (s.counters orgId start) ∧
      (s.takeSnapshot orgId start w).landed w = [] :=
  ⟨Function.update_self .., Function.update_self ..⟩

/-- A call takes its snapshot: everything stored so far is in it. -/
theorem Inv.takeSnapshot (h : Inv orgId start stop s) {w : Nat} (hw : s.snapshot w = none) :
    Inv orgId start stop (s.takeSnapshot orgId start w) where
  locked := h.locked
  known := h.known
  own v l hl := by
    have hv : v ≠ w := by
      rintro rfl
      rw [h.own v l hl] at hw
      cases hw
    rw [(takeSnapshot_ne hv).1]
    exact h.own v l hl
  stored := h.stored
  taken v n hn c := by
    by_cases hv : v = w
    · subst hv
      rw [(takeSnapshot_self v).1] at hn
      cases hn
      exact le_refl _
    · rw [(takeSnapshot_ne hv).1] at hn
      exact h.taken v n hn c
  missed v n hn u hu c := by
    by_cases hv : v = w
    · subst hv
      rw [(takeSnapshot_self v).1] at hn
      cases hn
      exact .inl (h.stored u hu c)
    · rw [(takeSnapshot_ne hv).1] at hn
      rw [(takeSnapshot_ne hv).2]
      exact h.missed v n hn u hu c
  landed v m hm := by
    by_cases hv : v = w
    · subst hv
      rw [(takeSnapshot_self v).2] at hm
      cases hm
    · rw [(takeSnapshot_ne hv).2] at hm
      exact h.landed v m hm

theorem Inv.step (h : Inv orgId start stop s) {a : SyncAct} (ha : s.InTurn a)
    (hs : s.step orgId start stop a = some s') : Inv orgId start stop s' := by
  cases a with
  | increment c n =>
    cases hs
    exact h.increment c n
  | readRedis w =>
    simp only [SyncState.step] at hs
    split at hs
    · cases hs
    next hnone =>
      split at hs
      · cases hs
        exact h
      · cases hs
        exact h.takeSnapshot hnone
  | readRow w =>
    obtain ⟨n, hn, hs⟩ := Option.bind_eq_some_iff.mp hs
    obtain ⟨cell, hcell, rfl⟩ := Option.map_eq_some_iff.mp hs
    refine h.goes_on (by trivial) hcell ?_ (fun _ _ hm => hm) (by simp) (fun _ _ hm => .inl hm)
    rintro v m hload
    cases hload
    exact hn
  | flush w =>
    obtain ⟨cell, hcell, rfl⟩ := Option.map_eq_some_iff.mp hs
    exact h.goes_on (h.covers ha) hcell (by simp) (fun _ _ hm => hm) (by simp)
      (fun _ _ hm => .inl hm)
  | commit w =>
    obtain ⟨cell, hcell, rfl⟩ := Option.map_eq_some_iff.mp hs
    refine h.goes_on (by trivial) hcell (by simp) ?_ ?_ ?_
    · intro v m hm
      exact List.mem_append_right _ hm
    · rintro v l hv htask x
      cases hv
      exact List.mem_append_left _ (by simp [h.own w l (.inr htask)])
    · intro v m hm
      rcases List.mem_append.mp hm with hm | hm
      · -- the snapshot that lands is in the row the commit leaves
        obtain ⟨l, htask, hdone⟩ := Cell.task_of_commit hcell
        have hknown := Cell.known_step Sync.keeps_upsert h.locked h.known (by trivial) hcell w
        rw [hdone] at hknown
        have hl : l.counts = m := by
          rw [h.own w l (.inr htask)] at hm
          exact Option.some.inj (Option.mem_toList.mp hm)
        exact .inr (hl ▸ hknown)
      · exact .inl hm
  | rollback w =>
    obtain ⟨cell, hcell, rfl⟩ := Option.map_eq_some_iff.mp hs
    exact h.goes_on (by trivial) hcell (by simp) (fun _ _ hm => hm) (by simp)
      (fun _ _ hm => .inl hm)

/-- No step of a run in turn lowers a counter, a statement that is still to commit included. -/
theorem Inv.step_raises (h : Inv orgId start stop s) {a : SyncAct}
    (hs : s.step orgId start stop a = some s') : Raises s.cell.row s'.cell.row := by
  cases a with
  | increment c n =>
    cases hs
    exact Raises.refl _
  | readRedis w =>
    simp only [SyncState.step] at hs
    split at hs
    · cases hs
    · split at hs <;> cases hs <;> exact Raises.refl _
  | readRow w =>
    obtain ⟨n, -, hs⟩ := Option.bind_eq_some_iff.mp hs
    obtain ⟨cell, hcell, rfl⟩ := Option.map_eq_some_iff.mp hs
    exact h.raises hcell
  | _ =>
    obtain ⟨cell, hcell, rfl⟩ := Option.map_eq_some_iff.mp hs
    exact h.raises hcell

/-- A statement out of turn lowers a counter once it commits. -/
theorem Inv.not_raises (h : Inv orgId start stop s) {w : Nat} {s₁ s₂ : SyncState}
    (ha : ¬ s.InTurn (.flush w)) (h₁ : s.step orgId start stop (.flush w) = some s₁)
    (h₂ : s₁.step orgId start stop (.commit w) = some s₂) :
    ¬ Raises s.cell.row s₂.cell.row := by
  obtain ⟨c₁, hc₁, rfl⟩ := Option.map_eq_some_iff.mp h₁
  obtain ⟨c₂, hc₂, rfl⟩ := Option.map_eq_some_iff.mp h₂
  simp only [InTurn, not_forall] at ha
  obtain ⟨l, hl, u₀, hu₀, m, hm, c, hset, hlt⟩ := ha
  have hissues : (Sync.upsert orgId start stop).issues l = true :=
    List.any_eq_true.mpr ⟨c, UsageCategory.mem_all c, by simp [Sync.sets, hu₀, hset]⟩
  have hwrite : l.write orgId start stop s.cell.row = some c₂.row := by
    have := Cell.row_of_flush_commit h.locked hl hc₁ hc₂
    rwa [if_pos hissues] at this
  -- the row holds the newer snapshot, and the column is set to the older one
  obtain ⟨u, hu, hle⟩ := h.landed w m hm
  intro hraises
  obtain ⟨u', hu', hup⟩ := hraises u hu
  rw [hu, show c₂.row = some u' from hu'] at hwrite
  rcases Sync.write_cases hwrite with ⟨hnone, -⟩ | ⟨v₀, hv₀, hrow⟩
  · rw [hu₀] at hnone
    cases hnone
  · rw [hu₀] at hv₀
    cases hv₀
    cases hrow
    have hcount := hup c
    simp only [hset, ne_eq, not_false_eq_true, if_true] at hcount
    exact hlt (le_trans (hle c) hcount)

variable {redis : UsageStore} {row : Option UsageRecord}

/-- **Concurrent syncs lose usage only by a statement out of turn.**  In every run from a row that
is not above Redis in which no call overwrites a column with a snapshot older than one that has
landed since it was taken, no step lowers a counter and the row holds at least every snapshot that
has been committed.  And a statement out of turn that commits lowers one. -/
theorem counters_never_decrease
    (h₀ : ∀ u, row = some u → ∀ c, u.count c ≤ redis.value (usageKey orgId start) c)
    (h : Reach (SyncState.step orgId start stop) InTurn (initial redis row) s) :
    (∀ a s', s.step orgId start stop a = some s' → Raises s.cell.row s'.cell.row) ∧
      (∀ w l, s.cell.task w = .committed l → Holds s.cell.row l.counts) ∧
      ∀ w s₁ s₂, ¬ s.InTurn (.flush w) → s.step orgId start stop (.flush w) = some s₁ →
        s₁.step orgId start stop (.commit w) = some s₂ → ¬ Raises s.cell.row s₂.cell.row := by
  have hinv : Inv orgId start stop s :=
    h.invariant (inv_initial h₀) (fun _ _ _ hi ha hs => hi.step ha hs)
  refine ⟨fun a s' hs => hinv.step_raises hs, fun w l hl => ?_, fun w s₁ s₂ => hinv.not_raises⟩
  have := hinv.known w
  rw [hl] at this
  exact this

/-- The condition, as a test. -/
def inTurnTest (s : SyncState) : SyncAct → Bool
  | .flush w =>
    match s.cell.task w with
    | .loaded ⟨counts, some u⟩ => (s.landed w).all (fun n =>
        UsageCategory.all.all (fun c => u.count c == counts c || n c ≤ counts c))
    | _ => true
  | _ => true

theorem inTurn_of_test {a : SyncAct} (h : s.inTurnTest a = true) : s.InTurn a := by
  cases a with
  | flush w =>
    rintro ⟨counts, loaded⟩ hl u hu n hn c hc
    cases hu
    simp only [inTurnTest, hl, List.all_eq_true] at h
    have := h n hn c (UsageCategory.mem_all c)
    simpa [hc] using this
  | _ => trivial

/-- Nothing has been counted in the period and there is no row for it. -/
def newPeriod : SyncState := initial ⟨fun _ _ => none, fun _ => none⟩ none

/-- Two calls, of which the second reads Redis after more usage was counted. -/
def laterLast : List SyncAct :=
  [.increment .traces 5, .readRedis 0, .readRow 0, .flush 0, .increment .traces 2, .readRedis 1,
    .commit 0, .readRow 1, .flush 1, .commit 1]

/-- The second call reads and commits between the first one's snapshot and its statement. -/
def laterFirst : List SyncAct :=
  [.increment .traces 5, .readRedis 0, .increment .traces 2, .readRedis 1, .readRow 1, .flush 1,
    .commit 1, .readRow 0, .flush 0]

/-- The stored traces. -/
def storedTraces (s : SyncState) : Option Int := s.cell.row.map (fun u => u.count .traces)

/-- Two calls that overlap, in turn: the row holds both snapshots. -/
theorem counters_never_decrease_overlap :
    ∃ s, run (checked (SyncState.step "acme" 0 30) inTurnTest) newPeriod laterLast = some s ∧
      s.storedTraces = some 7 ∧ ∀ w l, s.cell.task w = .committed l → Holds s.cell.row l.counts := by
  obtain ⟨s, hs⟩ := Option.isSome_iff_exists.mp
    (show (run (checked (SyncState.step "acme" 0 30) inTurnTest) newPeriod laterLast).isSome from by
      decide +kernel)
  have hstored : (run (checked (SyncState.step "acme" 0 30) inTurnTest) newPeriod laterLast).bind
      storedTraces = some 7 := by decide +kernel
  rw [hs] at hstored
  have hreach : Reach (SyncState.step "acme" 0 30) InTurn
      (initial ⟨fun _ _ => none, fun _ => none⟩ none) s :=
    Reach.run_checked .initial (fun _ _ => inTurn_of_test) hs
  exact ⟨s, hs, hstored, (counters_never_decrease (by simp) hreach).2.1⟩

/-- A snapshot that is older than the row lands last, and the stored counter goes from 7 to 5. -/
theorem old_snapshot_lands_last :
    ∃ s s', Reach (SyncState.step "acme" 0 30) Always newPeriod s ∧
      s.step "acme" 0 30 (.commit 0) = some s' ∧ s.storedTraces = some 7 ∧
      s'.storedTraces = some 5 := by
  obtain ⟨s, hs⟩ := Option.isSome_iff_exists.mp
    (show (run (SyncState.step "acme" 0 30) newPeriod laterFirst).isSome from by decide +kernel)
  have hbefore : (run (SyncState.step "acme" 0 30) newPeriod laterFirst).bind storedTraces =
    some 7 := by decide +kernel
  have hafter : ((run (SyncState.step "acme" 0 30) newPeriod laterFirst).bind
      (fun s => s.step "acme" 0 30 (.commit 0))).bind storedTraces = some 5 := by decide +kernel
  rw [hs] at hbefore hafter
  obtain ⟨s', hs', hstored⟩ := Option.bind_eq_some_iff.mp hafter
  exact ⟨s, s', reach_of_run hs, hs', hbefore, hstored⟩

end SyncState
end PandaProbe
