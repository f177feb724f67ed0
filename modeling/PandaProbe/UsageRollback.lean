import PandaProbe.UsageService

/-! # Whether a rollback undoes its own increment

`rollback_increment` recomputes the usage key from the subscription it sees when
it runs, not from the one that was incremented.  Anything may happen to the
organization in between (`Interlude`): its subscription row and cache change, and
a period reset deletes a usage hash.

Two results.  For one increment and its rollback, the pair cancels out exactly
under `Undoes` (`rollback_cancels_iff`): the rollback must see a period starting
on the same day, with the hash still there.  For whole runs (`Run`), where each
rollback follows an increment of its own, rollbacks that meet this condition keep
every counter at or above the increments still open in it (`Covered`), hence never
negative, and the sentinel `-1` is never a real counter value.
-/
namespace PandaProbe

/-- What happens to an organization between an increment and its rollback: a new
subscription row, a new cache entry, and usage hashes deleted by period resets. -/
structure Interlude where
  subscription : Option Subscription
  cache : Option Subscription
  deleted : String → Bool

namespace UsageState

/-- The state after an interlude. -/
def after (st : UsageState) (w : Interlude) : UsageState where
  db := { st.db with subscription := w.subscription }
  cache := w.cache
  redis := { st.redis with
    hash := fun k => if w.deleted k then fun _ => none else st.redis.hash k }

@[simp] theorem after_visible (st : UsageState) (w : Interlude) :
    (st.after w).visible = (w.cache <|> w.subscription) := rfl

theorem after_value (st : UsageState) (w : Interlude) (k : String) (f : UsageCategory) :
    (st.after w).redis.value k f = if w.deleted k then 0 else st.redis.value k f := by
  simp only [after, UsageStore.value]
  split <;> rfl

/-- When a rollback of `n` units after `w` undoes an increment made in `st`. -/
def Undoes (orgId : UUID) (n : Int) (st : UsageState) (w : Interlude) : Prop :=
  n = 0 ∨ ∃ sub, st.visible = some sub ∧
    match (w.cache <|> w.subscription) with
    | some sub' =>
        DateTime.isoDate sub'.currentPeriodStart = DateTime.isoDate sub.currentPeriodStart ∧
          w.deleted (usageKey orgId sub.currentPeriodStart) = false
    | none => w.deleted (usageKey orgId sub.currentPeriodStart) = true

/-- A successful first increment adds its count to the counter of the period it sees. -/
theorem value_of_checkAndIncrement_ok {orgId : UUID} {st : UsageState} {c : UsageCategory}
    {n v : Int} {i : UUID} (hi : st.Fresh i)
    (hok : (st.checkAndIncrement orgId c n i).2 = .ok v) :
    ∃ sub, st.visible = some sub ∧
      ∀ k f, (st.checkAndIncrement orgId c n i).1.redis.value k f =
        st.redis.value k f + unitsAt orgId (some sub) c n k f := by
  rcases @checkAndIncrement_cases orgId st c n i hi with ⟨e, he, -⟩ | ⟨sub, hv, hval, -⟩
  · rw [hok] at he; cases he
  · exact ⟨sub, hv, hv ▸ hval⟩

/-- The counters after an increment, an interlude and the rollback. -/
theorem value_after_rollback {orgId : UUID} {st : UsageState} {c : UsageCategory} {n v : Int}
    {i j : UUID} {w : Interlude} {sub : Subscription} (hi : st.Fresh i)
    (hok : (st.checkAndIncrement orgId c n i).2 = .ok v) (hv : st.visible = some sub)
    (hj : ((st.checkAndIncrement orgId c n i).1.after w).Fresh j) (k : String)
    (f : UsageCategory) :
    (((st.checkAndIncrement orgId c n i).1.after w).rollbackIncrement orgId c n j).redis.value k f
      = (if w.deleted k then 0 else st.redis.value k f + unitsAt orgId (some sub) c n k f) -
        unitsAt orgId (w.cache <|> w.subscription) c n k f := by
  obtain ⟨sub₁, hv₁, hval⟩ := value_of_checkAndIncrement_ok hi hok
  have hsub : sub₁ = sub := Option.some.inj (hv₁.symm.trans hv)
  rw [rollbackIncrement_value hj, after_value, hval, after_visible, hsub]

/-- **An increment and its rollback cancel out exactly under `Undoes`.** -/
theorem rollback_cancels_iff {orgId : UUID} {st : UsageState} {c : UsageCategory} {n v : Int}
    {i j : UUID} {w : Interlude} (hi : st.Fresh i)
    (hok : (st.checkAndIncrement orgId c n i).2 = .ok v)
    (hj : ((st.checkAndIncrement orgId c n i).1.after w).Fresh j) :
    (∀ k f, (((st.checkAndIncrement orgId c n i).1.after w).rollbackIncrement
        orgId c n j).redis.value k f = (st.after w).redis.value k f) ↔
      Undoes orgId n st w := by
  obtain ⟨sub, hv, -⟩ := value_of_checkAndIncrement_ok hi hok
  simp only [value_after_rollback hi hok hv hj, after_value, Undoes, hv, Option.some.injEq,
    exists_eq_left']
  cases hvis : (w.cache <|> w.subscription) with
  | none =>
    simp only [unitsAt_none, unitsAt_some, sub_zero]
    constructor
    · intro h
      have h0 := h (usageKey orgId sub.currentPeriodStart) c
      cases hd : w.deleted (usageKey orgId sub.currentPeriodStart) with
      | true => exact Or.inr rfl
      | false => simp [hd] at h0; exact Or.inl h0
    · rintro (rfl | hd) k f
      · simp
      · by_cases hk : k = usageKey orgId sub.currentPeriodStart
        · rw [hk, hd]; simp
        · simp [hk]
  | some sub' =>
    simp only [unitsAt_some]
    constructor
    · intro h
      by_cases hn : n = 0
      · exact Or.inl hn
      · right
        by_cases hkey : usageKey orgId sub'.currentPeriodStart =
            usageKey orgId sub.currentPeriodStart
        · refine ⟨usageKey_eq_iff.mp hkey, ?_⟩
          have h1 := h (usageKey orgId sub.currentPeriodStart) c
          cases hd : w.deleted (usageKey orgId sub.currentPeriodStart) with
          | false => rfl
          | true => simp [hd, hkey] at h1; exact absurd h1 hn
        · -- a different hash: the rollback takes `n` from a counter it never raised
          have h2 := h (usageKey orgId sub'.currentPeriodStart) c
          cases hd : w.deleted (usageKey orgId sub'.currentPeriodStart) <;>
            simp [hd, hkey] at h2 <;> exact absurd h2 hn
    · rintro (rfl | ⟨hiso, hd⟩) k f
      · simp
      · rw [usageKey_eq_iff.mpr hiso]
        by_cases hk : k = usageKey orgId sub.currentPeriodStart ∧ f = c
        · rw [if_pos hk, hk.1, hd]; simp
        · simp only [if_neg hk]
          split <;> omega

end UsageState

/-! ## Runs -/

/-- A counted increment that has not been rolled back.  `lost` notes that the hash
it went to has been deleted since. -/
structure OpenIncrement where
  key : String
  category : UsageCategory
  count : Nat
  lost : Bool

/-- An organization's state, with the increments that may still be rolled back. -/
structure UsageRun where
  state : UsageState
  pending : List OpenIncrement

/-- When a pending increment's rollback undoes it (the condition of `Undoes`, read
on the state before the rollback): there is nothing to undo; or the period the
rollback sees has the hash that was raised, and the hash has not been deleted; or it
sees none and the hash is gone. -/
def OpenIncrement.Matched (orgId : UUID) (st : UsageState) (x : OpenIncrement) : Prop :=
  x.count = 0 ∨
    match st.visible with
    | some sub => usageKey orgId sub.currentPeriodStart = x.key ∧ x.lost = false
    | none => x.lost = true

/-- One step of an organization.  The parameter `Ok` says which rollbacks a run may
make; every pending increment is rolled back at most once. -/
inductive UsageStep (orgId : UUID) (Ok : UsageState → OpenIncrement → Prop) :
    UsageRun → UsageRun → Prop
  | change (r : UsageRun) (subscription cache : Option Subscription) :
      UsageStep orgId Ok r
        ⟨{ r.state with db := { r.state.db with subscription := subscription }, cache := cache },
          r.pending⟩
  | reset (r : UsageRun) (start : DateTime) :
      UsageStep orgId Ok r
        ⟨r.state.deleteUsageKey orgId start,
          r.pending.map (fun x => { x with lost := x.lost || x.key == usageKey orgId start })⟩
  | count (r : UsageRun) (c : UsageCategory) (n : Nat) (i : UUID) (v : Int) (sub : Subscription)
      (hi : r.state.Fresh i) (hok : (r.state.checkAndIncrement orgId c n i).2 = .ok v)
      (hsub : r.state.visible = some sub) :
      UsageStep orgId Ok r
        ⟨(r.state.checkAndIncrement orgId c n i).1,
          ⟨usageKey orgId sub.currentPeriodStart, c, n, false⟩ :: r.pending⟩
  | refuse (r : UsageRun) (c : UsageCategory) (n : Nat) (i : UUID) (e : QuotaError)
      (hi : r.state.Fresh i) (hno : (r.state.checkAndIncrement orgId c n i).2 = .error e) :
      UsageStep orgId Ok r ⟨(r.state.checkAndIncrement orgId c n i).1, r.pending⟩
  | rollback (r : UsageRun) (x : OpenIncrement) (before rest : List OpenIncrement) (j : UUID)
      (hx : r.pending = before ++ x :: rest) (hj : r.state.Fresh j) (hok : Ok r.state x) :
      UsageStep orgId Ok r
        ⟨r.state.rollbackIncrement orgId x.category x.count j, before ++ rest⟩

/-- The states a run can reach, from empty usage hashes. -/
inductive UsageReachable (orgId : UUID) (Ok : UsageState → OpenIncrement → Prop) :
    UsageRun → Prop
  | initial (db : BillingDb) (cache : Option Subscription) :
      UsageReachable orgId Ok ⟨⟨db, cache, ⟨fun _ _ => none, fun _ => none⟩⟩, []⟩
  | step {r r' : UsageRun} : UsageReachable orgId Ok r → UsageStep orgId Ok r r' →
      UsageReachable orgId Ok r'

/-- What a list of pending increments has put into a counter. -/
def owed (l : List OpenIncrement) (k : String) (f : UsageCategory) : Int :=
  (l.map (fun x => if x.lost = false ∧ x.key = k ∧ x.category = f then (x.count : Int) else 0)).sum

theorem owed_cons (x : OpenIncrement) (l : List OpenIncrement) (k : String) (f : UsageCategory) :
    owed (x :: l) k f =
      (if x.lost = false ∧ x.key = k ∧ x.category = f then (x.count : Int) else 0) + owed l k f := by
  simp [owed]

theorem owed_append_cons (before rest : List OpenIncrement) (x : OpenIncrement) (k : String)
    (f : UsageCategory) : owed (before ++ x :: rest) k f =
      (if x.lost = false ∧ x.key = k ∧ x.category = f then (x.count : Int) else 0) +
        owed (before ++ rest) k f := by
  simp [owed]
  omega

theorem owed_nonneg (l : List OpenIncrement) (k : String) (f : UsageCategory) : 0 ≤ owed l k f := by
  induction l with
  | nil => simp [owed]
  | cons x l ih =>
    rw [owed_cons]
    split <;> omega

/-- Deleting a hash loses exactly what is pending in it. -/
theorem owed_reset (l : List OpenIncrement) (key k : String) (f : UsageCategory) :
    owed (l.map (fun x => { x with lost := x.lost || x.key == key })) k f =
      if k = key then 0 else owed l k f := by
  induction l with
  | nil => simp [owed]
  | cons x l ih =>
    rw [List.map_cons, owed_cons, ih, owed_cons]
    by_cases hk : k = key
    · subst hk
      by_cases hx : x.key = k <;> simp [hx]
    · by_cases hx : x.key = k
      · have : x.key ≠ key := fun h => hk (hx.symm.trans h)
        simp [hk, this]
      · simp [hk, hx]

/-- **The invariant**: every counter covers the increments still pending in it. -/
def Covered (r : UsageRun) : Prop :=
  ∀ k f, owed r.pending k f ≤ r.state.redis.value k f

theorem Covered.nonneg {r : UsageRun} (h : Covered r) (k : String) (f : UsageCategory) :
    0 ≤ r.state.redis.value k f := le_trans (owed_nonneg r.pending k f) (h k f)

/-- While counters are not negative, a refused call has added nothing. -/
theorem value_of_checkAndIncrement_error {orgId : UUID} {st : UsageState} {c : UsageCategory}
    {n : Nat} {i : UUID} {e : QuotaError} (hnn : ∀ k f, 0 ≤ st.redis.value k f)
    (hi : st.Fresh i) (hno : (st.checkAndIncrement orgId c n i).2 = .error e) (k : String)
    (f : UsageCategory) :
    (st.checkAndIncrement orgId c n i).1.redis.value k f = st.redis.value k f := by
  rcases @UsageState.checkAndIncrement_cases orgId st c n i hi with
    ⟨_, -, hval⟩ | ⟨sub, -, -, hok | ⟨hneg, -⟩⟩
  · exact hval k f
  · rw [hok] at hno; cases hno
  · have := hnn (usageKey orgId sub.currentPeriodStart) c
    omega

/-- **One step keeps the counters covered**, if its rollback is matched. -/
theorem covered_step {orgId : UUID} {r r' : UsageRun} (h : Covered r)
    (hs : UsageStep orgId (OpenIncrement.Matched orgId) r r') : Covered r' := by
  cases hs with
  | change subscription cache => exact h
  | reset start =>
    intro k f
    rw [owed_reset]
    by_cases hk : k = usageKey orgId start
    · simp [hk, UsageState.deleteUsageKey, UsageStore.value]
    · simpa [hk, UsageState.deleteUsageKey, UsageStore.value] using h k f
  | count c n i v sub hi hok hsub =>
    intro k f
    obtain ⟨sub₁, hv₁, hval⟩ := UsageState.value_of_checkAndIncrement_ok hi hok
    have hsub' : sub₁ = sub := Option.some.inj (hv₁.symm.trans hsub)
    subst hsub'
    have hk := h k f
    rw [owed_cons, hval, UsageState.unitsAt_some]
    simp only [true_and, eq_comm (a := k), eq_comm (a := f)]
    omega
  -- the script answers -1 for a refusal, which no count of a covered counter looks like
  | refuse c n i e hi hno =>
    intro k f
    rw [value_of_checkAndIncrement_error h.nonneg hi hno]
    exact h k f
  | rollback x before rest j hx hj hmatch =>
    intro k f
    have hk := h k f
    rw [hx, owed_append_cons] at hk
    rw [UsageState.rollbackIncrement_value hj]
    change owed (before ++ rest) k f ≤ _
    -- no units, or the units are taken from the hash they were added to, which still has them
    rcases hmatch with hzero | hmatch
    · have hunits : UsageState.unitsAt orgId r.state.visible x.category (x.count : Int) k f = 0 := by
        cases r.state.visible <;> simp [hzero]
      rw [hunits]
      split at hk <;> omega
    cases hv : r.state.visible with
    | none =>
      simp only [hv] at hmatch
      simp only [hmatch, Bool.true_eq_false, false_and, if_false] at hk
      rw [UsageState.unitsAt_none]
      omega
    | some sub =>
      simp only [hv] at hmatch
      obtain ⟨hkey, hlost⟩ := hmatch
      rw [UsageState.unitsAt_some, hkey]
      simp only [hlost, true_and, eq_comm (a := k), eq_comm (a := f)] at hk ⊢
      omega

/-- **Every run with matched rollbacks keeps its counters covered.** -/
theorem covered_of_reachable {orgId : UUID} {r : UsageRun}
    (h : UsageReachable orgId (OpenIncrement.Matched orgId) r) : Covered r := by
  induction h with
  | initial db cache => intro k f; simp [owed, UsageStore.value]
  | step _ hs ih => exact covered_step ih hs

/-- **A rollback undoes its increment exactly when it sees the incremented period.**
For one increment and its rollback, whatever happens to the subscription, the cache
and the hashes in between, every counter ends as if neither call had happened if and
only if `Undoes` holds.  In a run whose rollbacks all meet that condition no counter
is ever negative, and a call that raises has added nothing to any counter. -/
theorem rollback_undoes_iff (orgId : UUID) :
    (∀ (st : UsageState) (c : UsageCategory) (n v : Int) (i j : UUID) (w : Interlude),
      st.Fresh i → (st.checkAndIncrement orgId c n i).2 = .ok v →
      ((st.checkAndIncrement orgId c n i).1.after w).Fresh j →
      ((∀ k f, (((st.checkAndIncrement orgId c n i).1.after w).rollbackIncrement
          orgId c n j).redis.value k f = (st.after w).redis.value k f) ↔
        UsageState.Undoes orgId n st w)) ∧
    (∀ r, UsageReachable orgId (OpenIncrement.Matched orgId) r →
      (∀ k f, 0 ≤ r.state.redis.value k f) ∧
      ∀ (c : UsageCategory) (n : Nat) (i : UUID) (e : QuotaError), r.state.Fresh i →
        (r.state.checkAndIncrement orgId c n i).2 = .error e →
        ∀ k f, (r.state.checkAndIncrement orgId c n i).1.redis.value k f =
          r.state.redis.value k f) := by
  refine ⟨?_, ?_⟩
  · intro st c n v i j w hi hok hj
    exact UsageState.rollback_cancels_iff hi hok hj
  · intro r hr
    have hnn := (covered_of_reachable hr).nonneg
    refine ⟨hnn, ?_⟩
    intro c n i e hi hno k f
    exact value_of_checkAndIncrement_error hnn hi hno k f

/-- A Pro subscription whose period starts at `start`. -/
def proSubscription (start : DateTime) : Subscription :=
  ⟨"org", .pro, .active, some "cus", some "sub", start, start + DateTime.days 30, none⟩

/-- An organization on Pro in a period starting at `start`, with nothing counted. -/
def proState (start : DateTime) : UsageState :=
  ⟨⟨some (proSubscription start), fun _ => none, [], BillingDb.empty.usage_keyed⟩, none,
    ⟨fun _ _ => none, fun _ => none⟩⟩

/-- The same period is still visible: the two units are taken back. -/
theorem rollback_undoes_iff_same_period :
    let w : Interlude := ⟨some (proSubscription 0), none, fun _ => false⟩
    ((((proState 0).checkAndIncrement "org" .traces 2 "i").1.after w).rollbackIncrement
        "org" .traces 2 "j").redis.value (usageKey "org" 0) .traces = 0 := by
  intro w
  have hj : (((proState 0).checkAndIncrement "org" .traces 2 "i").1.after w).Fresh "j" := by
    intro key
    have hdedup : ∀ x, x.toList.getLast? = some 'j' →
        (((proState 0).checkAndIncrement "org" .traces 2 "i").1.after w).redis.dedup x = none := by
      intro x hx
      refine Function.update_of_ne ?_ _ _
      rintro rfl
      simp [retryKey] at hx
    exact ⟨hdedup _ (by simp [retryKey]), hdedup _ (by simp [rollbackRetryKey])⟩
  have h := ((rollback_undoes_iff "org").1 (proState 0) .traces 2 2 "i" "j" w
    (fun _ => ⟨rfl, rfl⟩) (by decide) hj).mpr
      (Or.inr ⟨proSubscription 0, rfl, rfl, rfl⟩)
  exact (h (usageKey "org" 0) .traces).trans (by decide)

/-- **The renewal between the two calls.**  Two units are counted in the period of
day 0, the row moves to the period of day 30, and the rollback takes the two units
from the new period: the old period keeps them, the new one is at `-2`, and the next
billable unit is counted and refused at once, its new value being the sentinel. -/
theorem rollback_misses_after_renewal :
    let w : Interlude := ⟨some (proSubscription (DateTime.days 30)), none, fun _ => false⟩
    let st := ((proState 0).checkAndIncrement "org" .traces 2 "i").1.after w
    let st' := st.rollbackIncrement "org" .traces 2 "j"
    ((proState 0).checkAndIncrement "org" .traces 2 "i").2 = .ok 2 ∧
    ((proState 0).after w).redis.value (usageKey "org" 0) .traces = 0 ∧
    st'.redis.value (usageKey "org" 0) .traces = 2 ∧
    st'.redis.value (usageKey "org" (DateTime.days 30)) .traces = -2 ∧
    (st'.checkAndIncrement "org" .traces 1 "l").2 = .error (.limitReached .traces (some 5000) .pro) ∧
    (st'.checkAndIncrement "org" .traces 1 "l").1.redis.value
      (usageKey "org" (DateTime.days 30)) .traces = -1 := by
  decide

end PandaProbe
