import PandaProbe.ReservedOverage

/-! # The pending overage

The pending cost of the billing page is not negative as long as the counter it shows holds
what is reserved in the period it shows: watermarks never pass a reserved snapshot, so it is
enough that no reserved snapshot is above both the allowance and the live counter (`Backed`).

Increments raise counters, syncs and deliveries reserve nothing.  What is left can lower a
counter or change the period it is compared with, and is what the condition
(`PageRun.InTurn`) is about.  `pending_negative` is a run that breaks it: a report is delivered,
and then an increment it has counted is rolled back.
-/
namespace PandaProbe
open HighWater

namespace UsageState
open BillingDb
variable {orgId : UUID} {st st' : UsageState}

/-- **The invariant**: no watermark is above what is reserved; what is reserved in the current
period is within the allowance or in its counter; and the counter is seen through the cache,
or nothing above the allowances is reserved. -/
structure Backed (orgId : UUID) (st : UsageState) : Prop where
  watermarked : st.db.Watermarked
  held : ∀ x, st.terms = some x → st.Held orgId st.redis.value x
  seen : ∀ x, st.terms = some x → st.Sees orgId x.1 ∨ st.Quiet x

/-- A handler in turn. -/
theorem Backed.turn {op : OrgOp} (h : Backed orgId st) (ht : Turn orgId op st st')
    (hok : op.Fits st orgId) : Backed orgId st' := by
  refine ⟨ht.reserves.watermarked, fun x hx c => ?_, fun x hx => ?_⟩
  · obtain ⟨hmoved, hstaged⟩ := hok x (ht.lands x hx)
    have hheld : st.Held orgId st.redis.value x := by
      by_cases hsame : st.terms = some x
      · exact h.held x hsame
      · exact (hmoved hsame).1
    rw [ht.redis]
    refine le_trans (ht.reserves.snapshots x.1 c) ?_
    split
    next hmem => exact max_le (hheld c) ((hstaged hmem).1 c)
    · exact hheld c
  · obtain ⟨hmoved, hstaged⟩ := hok x (ht.lands x hx)
    rcases ht.cache with ⟨hcache, hcold⟩ | hrow
    · have hseen : st.Sees orgId x.1 ∨ st.Quiet x := by
        by_cases hsame : st.terms = some x
        · exact h.seen x hsame
        · rcases (hmoved hsame).2 with hwarm | hseen
          · exact absurd ((hcold hwarm) ▸ hx) hsame
          · exact hseen
      have hkeep : st.Sees orgId x.1 → st'.Sees orgId x.1 := fun hsees sub hsub =>
        hsees sub (hcache ▸ hsub)
      rcases hseen with hsees | hquiet
      · exact Or.inl (hkeep hsees)
      · by_cases hmem : x.1 ∈ op.stages st
        · rcases (hstaged hmem).2 with hsees | hdue
          · exact Or.inl (hkeep hsees)
          · refine Or.inr fun c => le_trans (ht.reserves.snapshots x.1 c) ?_
            rw [if_pos hmem]
            exact max_le (hquiet c) (hdue c)
        · refine Or.inr fun c => le_trans (ht.reserves.snapshots x.1 c) ?_
          rw [if_neg hmem]
          exact hquiet c
    · refine Or.inl fun sub hsub => ?_
      rw [terms, hrow sub hsub] at hx
      cases hx
      rfl

/-- A step that reserves nothing and leaves the subscription where it is. -/
theorem Backed.of_keeps (h : Backed orgId st) (hk : Keeps st.db st'.db)
    (hsub : st'.db.subscription = st.db.subscription)
    (hheld : ∀ x, st.terms = some x → st.Held orgId st'.redis.value x)
    (hsees : ∀ x, st.terms = some x → st.Sees orgId x.1 → st'.Sees orgId x.1 ∨ st.Quiet x) :
    Backed orgId st' := by
  have hterms : st'.terms = st.terms := congrArg (Option.map Subscription.terms) hsub
  refine ⟨hk.watermarked h.watermarked, fun x hx c => ?_, fun x hx => ?_⟩
  · exact le_trans (hk.snapshots x.1 c) (hheld x (hterms ▸ hx) c)
  · have hx : st.terms = some x := hterms ▸ hx
    have hquiet : st.Quiet x → st'.Quiet x := fun hq c => le_trans (hk.snapshots x.1 c) (hq c)
    rcases h.seen x hx with hs | hq
    · exact (hsees x hx hs).imp_right hquiet
    · exact Or.inr (hquiet hq)

theorem getSubscriptionCached_cache (st : UsageState) :
    st.getSubscriptionCached.1.cache = st.visible := by
  unfold getSubscriptionCached visible
  cases hc : st.cache with
  | some sub => exact hc
  | none =>
    cases hs : st.db.subscription with
    | some sub => rfl
    | none => exact hc

/-- What a cached read sees is in the current period's hash, if what is cached is. -/
theorem Sees.visible {x : Terms} {sub : Subscription} (h : st.Sees orgId x.1)
    (hx : st.terms = some x) (hv : st.visible = some sub) :
    usageKey orgId sub.currentPeriodStart = usageKey orgId x.1 := by
  unfold UsageState.visible at hv
  cases hc : st.cache with
  | some s =>
    rw [hc] at hv
    cases hv
    exact h sub hc
  | none =>
    rw [hc] at hv
    rw [terms, show st.db.subscription = some sub from hv] at hx
    cases hx
    rfl

/-- A cached read. -/
theorem Backed.read (h : Backed orgId st) (hdb : st'.db = st.db) (hcache : st'.cache = st.visible)
    (hheld : ∀ x, st.terms = some x → st.Held orgId st'.redis.value x) : Backed orgId st' := by
  refine h.of_keeps (hdb ▸ .refl _) (by rw [hdb]) hheld fun x hx hs => Or.inl fun sub hsub => ?_
  exact hs.visible hx (hcache ▸ hsub)

/-! ## Counting -/

theorem value_le_checkAndIncrementLua (r : UsageStore) (key d : String) (c : UsageCategory)
    (n : Nat) (limit : Int) (k : String) (f : UsageCategory) :
    r.value k f ≤ (checkAndIncrementLua r key d c n limit).1.value k f := by
  cases hd : r.dedup d with
  | some reply =>
    simp only [checkAndIncrementLua, hd]
    exact le_refl _
  | none =>
    rw [checkAndIncrementLua_fresh hd]
    split
    · rw [UsageStore.value_setDedup, UsageStore.value_hset]
      split
      next hk => rw [hk.1, hk.2]
      · exact le_refl _
    · rw [UsageStore.value_setDedup, UsageStore.value_hset]
      split
      next hk =>
        rw [hk.1, hk.2]
        omega
      · exact le_refl _

/-- An increment, replayed or not, lowers no counter. -/
theorem value_le_checkAndIncrement (st : UsageState) (c : UsageCategory) (n : Nat) (id : UUID)
    (k : String) (f : UsageCategory) :
    st.redis.value k f ≤ (st.checkAndIncrement orgId c n id).1.redis.value k f := by
  have hfst : st.getSubscriptionCached = (st.getSubscriptionCached.1, st.visible) :=
    Prod.ext rfl st.getSubscriptionCached_snd
  unfold checkAndIncrement
  rw [hfst]
  cases hv : st.visible with
  | none => simp
  | some sub =>
    simp only [getSubscriptionCached_redis]
    split
    · simp
    · split <;> exact value_le_checkAndIncrementLua _ _ _ _ _ _ _ _

/-- A rollback takes back at most `n`, from the counter it sees. -/
theorem rollbackIncrement_value_cases (st : UsageState) (c : UsageCategory) (n : Nat) (id : UUID)
    (k : String) (f : UsageCategory) :
    (st.rollbackIncrement orgId c n id).redis.value k f = st.redis.value k f ∨
      ((∃ sub, st.visible = some sub ∧ k = usageKey orgId sub.currentPeriodStart) ∧ f = c ∧
        st.redis.dedup (rollbackRetryKey k id) = none ∧
        (st.rollbackIncrement orgId c n id).redis.value k f = st.redis.value k f - n) := by
  have hfst : st.getSubscriptionCached = (st.getSubscriptionCached.1, st.visible) :=
    Prod.ext rfl st.getSubscriptionCached_snd
  unfold rollbackIncrement
  rw [hfst]
  cases hv : st.visible with
  | none => simp
  | some sub =>
    simp only [getSubscriptionCached_redis]
    cases hd : st.redis.dedup (rollbackRetryKey (usageKey orgId sub.currentPeriodStart) id) with
    | some reply =>
      left
      simp only [rollbackIncrementLua, hd]
    | none =>
      rw [rollbackIncrementLua_fresh hd, UsageStore.value_setDedup, UsageStore.value_hset]
      by_cases hk : k = usageKey orgId sub.currentPeriodStart ∧ f = c
      · rw [if_pos hk, hk.1, hk.2]
        exact Or.inr ⟨⟨sub, rfl, rfl⟩, rfl, hd, by omega⟩
      · exact Or.inl (if_neg hk)

theorem cache_checkAndIncrement (st : UsageState) (c : UsageCategory) (n : Int) (id : UUID) :
    (st.checkAndIncrement orgId c n id).1.cache = st.visible := by
  unfold checkAndIncrement
  simp only [getSubscriptionCached_snd]
  split
  · exact st.getSubscriptionCached_cache
  · split
    · exact st.getSubscriptionCached_cache
    · split <;> exact st.getSubscriptionCached_cache

theorem cache_rollbackIncrement (st : UsageState) (c : UsageCategory) (n : Int) (id : UUID) :
    (st.rollbackIncrement orgId c n id).cache = st.visible := by
  unfold rollbackIncrement
  simp only [getSubscriptionCached_snd]
  split <;> exact st.getSubscriptionCached_cache

theorem Backed.increment (h : Backed orgId st) (c : UsageCategory) (n : Nat) (id : UUID) :
    Backed orgId (st.checkAndIncrement orgId c n id).1 := by
  refine h.read (checkAndIncrement_db _ _ _ _) (cache_checkAndIncrement _ _ _ _) fun x hx f => ?_
  exact le_trans (h.held x hx f) (max_le_max_left _ (value_le_checkAndIncrement _ _ _ _ _ _))

theorem Backed.rollback (h : Backed orgId st) {c : UsageCategory} {n : Nat} {id : UUID}
    (hok : OrgOp.InTurn st orgId (.rollback c n id)) :
    Backed orgId (st.rollbackIncrement orgId c n id) := by
  refine h.read (rollbackIncrement_db _ _ _ _) (cache_rollbackIncrement _ _ _ _) fun x hx f => ?_
  rcases st.rollbackIncrement_value_cases c n id (usageKey orgId x.1) f with
    he | ⟨⟨sub, hv, hkey⟩, rfl, hfirst, he⟩
  · rw [he]
    exact h.held x hx f
  · rw [he]
    exact hok x hx sub hv hkey.symm hfirst

/-- A deleted hash counts nothing. -/
theorem value_deleteUsageKey (st : UsageState) (start : DateTime) (k : String) (c : UsageCategory) :
    (st.deleteUsageKey orgId start).redis.value k c =
      if k = usageKey orgId start then 0 else st.redis.value k c := by
  unfold deleteUsageKey UsageStore.value
  by_cases hk : k = usageKey orgId start
  · simp [hk]
  · simp [hk]

theorem Backed.expireUsageKey (h : Backed orgId st) {start : DateTime}
    (hok : OrgOp.InTurn st orgId (.expireUsageKey start)) :
    Backed orgId (st.deleteUsageKey orgId start) := by
  refine h.of_keeps (.refl _) rfl (fun x hx c => ?_) fun x hx hs => Or.inl hs
  rw [value_deleteUsageKey]
  split
  next hkey => exact le_max_of_le_left (hok x hx hkey.symm c)
  · exact h.held x hx c

theorem Backed.resetHobby (h : Backed orgId st) (hok : OrgOp.InTurn st orgId .resetHobby)
    (hreset : st.resetSingleHobbyOrg orgId = .ok st') : Backed orgId st' := by
  cases hsub : st.db.subscription with
  | none =>
    simp only [resetSingleHobbyOrg, hsub, Except.ok.injEq] at hreset
    exact hreset ▸ h
  | some sub =>
    obtain ⟨st₁, hcommit, rfl⟩ := resetSingleHobbyOrg_ok hsub hreset
    obtain ⟨db, hdb, rfl⟩ := commitReset_ok hcommit
    have hkeeps : Keeps st.db db :=
      (keeps_updateSubscription _ _).trans (keeps_createUsageRecord hdb)
    refine ⟨hkeeps.watermarked h.watermarked, fun x hx c => ?_, fun x hx => Or.inl fun s hs => ?_⟩
    · have hopen : x ∈ OrgOp.resetHobby.opens st orgId := by
        change db.subscription.map Subscription.terms = some x at hx
        rw [subscription_of_createUsageRecord hdb, advancePeriod_subscription, hsub] at hx
        simp only [OrgOp.opens, hsub]
        exact hx
      exact le_trans (hkeeps.snapshots x.1 c) (hok sub hsub x hopen c)
    · cases hs

/-- **An operation in turn keeps it.** -/
theorem Backed.apply (h : Backed orgId st) {op : OrgOp} (hok : op.InTurn st orgId) :
    Backed orgId (PeriodKeys.apply orgId st op) := by
  have hstays : ∀ {op : OrgOp} {st' : UsageState}, st' = st ∨ Turn orgId op st st' →
      (Turn orgId op st st' → Backed orgId st') → Backed orgId st' := by
    rintro op st' (rfl | ht) hturn
    · exact h
    · exact hturn ht
  have hresult : ∀ {r : Except BillingError UsageState}, (∀ st', r = .ok st' → Backed orgId st') →
      Backed orgId (r.toOption.getD st) := by
    rintro (e | st') hr
    · exact h
    · exact hr st' rfl
  cases op with
  | createOrganization plan now =>
    exact hresult fun st' hst => h.turn (turn_createOrganization h.watermarked hst) hok
  | checkoutCompleted obj ctx =>
    exact h.turn (turn_handleCheckoutCompleted obj ctx h.watermarked) hok
  | invoiceCreated obj ctx =>
    exact hresult fun st' hst =>
      hstays (turn_handleInvoiceCreated h.watermarked hst) fun ht => h.turn ht hok
  | invoicePaid obj live ctx =>
    exact hresult fun st' hst =>
      hstays (turn_handleInvoicePaid h.watermarked hst) fun ht => h.turn ht hok
  | invoicePaymentFailed obj ctx =>
    exact hstays (turn_handleInvoicePaymentFailed obj ctx h.watermarked) fun ht => h.turn ht hok
  | subscriptionUpdated obj ctx =>
    exact hstays (turn_handleSubscriptionUpdated obj ctx h.watermarked) fun ht => h.turn ht hok
  | subscriptionDeleted sid ctx =>
    exact hstays (turn_handleSubscriptionDeleted sid ctx h.watermarked) fun ht => h.turn ht hok
  | resetHobby => exact hresult fun st' hst => h.resetHobby hok hst
  | syncUsage =>
    refine h.of_keeps (keeps_syncToDatabase none) (syncToDatabase_frame none).2 ?_ ?_
    · exact fun x hx => (@redis_syncToDatabase orgId st none).symm ▸ h.held x hx
    · exact fun x hx hs => Or.inl fun sub hsub => hs sub (cache_syncToDatabase none ▸ hsub)
  | increment c n id => exact h.increment c n id
  | rollback c n id => exact h.rollback hok
  | expireUsageKey start => exact h.expireUsageKey hok
  | expireCache =>
    exact h.of_keeps (.refl _) rfl h.held fun x hx hs => Or.inl fun sub hsub => by cases hsub

end UsageState

/-! ## The page -/

theorem Decimal.times_mono (d : Decimal) : Monotone d.times := by
  intro m n h
  have hcast : (m : ℚ) ≤ n := by exact_mod_cast h
  exact div_le_div_of_nonneg_right (mul_le_mul_of_nonneg_left hcast (Nat.cast_nonneg _))
    (by positivity)

/-- Overage over all categories grows with the overage of each. -/
theorem SubscriptionPlan.unitsOver_mono {plan : SubscriptionPlan} {m n : UsageCategory → Int}
    (h : ∀ c, overage (plan.base c) (m c) ≤ overage (plan.base c) (n c)) :
    plan.unitsOver m ≤ plan.unitsOver n :=
  add_le_add (add_le_add (h _) (h _)) (h _)

namespace UsageState
variable {orgId : UUID} {st : UsageState}

/-- The counters a page shows are those of the period it sees. -/
theorem getCurrentUsage_used (st : UsageState) {sub : Subscription} (hv : st.visible = some sub)
    (now : DateTime) : (st.getCurrentUsage orgId now).2.used =
      st.redis.value (usageKey orgId sub.currentPeriodStart) := by
  have hfst : st.getSubscriptionCached = (st.getSubscriptionCached.1, st.visible) :=
    Prod.ext rfl st.getSubscriptionCached_snd
  unfold getCurrentUsage
  rw [hfst, hv]
  simp only [getSubscriptionCached_redis]

theorem getCurrentUsage_state (st : UsageState) (now : DateTime) :
    (st.getCurrentUsage orgId now).1 = st.getSubscriptionCached.1 := by
  unfold getCurrentUsage
  simp only
  split <;> rfl

/-- **No category has more overage reported than shown.** -/
theorem Backed.overage_reported_le (h : Backed orgId st) {sub shown : Subscription}
    (hsub : st.db.subscription = some sub) (hv : st.visible = some shown) {u : UsageRecord}
    (hu : st.db.usage sub.currentPeriodStart = some u) (c : UsageCategory) :
    overage (sub.plan.base c) (u.reported c) ≤
      overage (sub.plan.base c) (st.redis.value (usageKey orgId shown.currentPeriodStart) c) := by
  have hx : st.terms = some sub.terms := by rw [terms, hsub, Option.map_some]
  have hmark : u.reported c ≤ st.db.largestSnapshot sub.currentPeriodStart c :=
    h.watermarked _ u c hu
  have hheld : st.db.largestSnapshot sub.currentPeriodStart c ≤ max (sub.plan.base c)
      (st.redis.value (usageKey orgId sub.currentPeriodStart) c) := h.held _ hx c
  rcases h.seen _ hx with hsees | hquiet
  · rw [hsees.visible hx hv]
    change _ ≤ overage _ (st.redis.value (usageKey orgId sub.currentPeriodStart) c)
    unfold overage
    omega
  -- nothing above the allowance is reserved, so nothing is reported
  · have hbase : st.db.largestSnapshot sub.currentPeriodStart c ≤ sub.plan.base c := hquiet c
    unfold overage
    omega

theorem Backed.reportedUnits_le (h : Backed orgId st) {sub shown : Subscription}
    (hsub : st.db.subscription = some sub) (hv : st.visible = some shown) :
    st.reportedUnits sub ≤ sub.plan.unitsOver
      (st.redis.value (usageKey orgId shown.currentPeriodStart)) := by
  unfold reportedUnits
  split
  · exact add_nonneg (add_nonneg (le_max_left _ _) (le_max_left _ _)) (le_max_left _ _)
  next u hu => exact SubscriptionPlan.unitsOver_mono (h.overage_reported_le hsub hv hu)

/-- **The page of a backed state shows no negative pending cost.** -/
theorem Backed.pending (h : Backed orgId st) {now : DateTime} {res : BillingResponse}
    (hres : (st.getBilling orgId now).2 = .ok res) :
    res.reportedOverageCost ≤ res.totalOverageCost ∧ 0 ≤ res.pendingOverageCost := by
  unfold getBilling at hres
  split at hres
  · cases hres
  next sub hsub =>
    obtain ⟨shown, hv⟩ : ∃ shown, st.visible = some shown := by
      unfold UsageState.visible
      rw [hsub]
      cases st.cache with
      | none => exact ⟨sub, rfl⟩
      | some s => exact ⟨s, rfl⟩
    have hunits := h.reportedUnits_le hsub hv
    have hdb : (st.getCurrentUsage orgId now).1.db = st.db := by
      rw [getCurrentUsage_state, getSubscriptionCached_db]
    have hreported : (st.getCurrentUsage orgId now).1.reportedUnits sub = st.reportedUnits sub := by
      unfold reportedUnits
      rw [hdb]
    have hcost := overageUnitPrice.times_mono hunits
    rw [← hreported, ← getCurrentUsage_used st hv now] at hcost
    cases hres
    exact ⟨hcost, sub_nonneg.mpr hcost⟩

end UsageState

namespace PageRun
open UsageState BillingDb
variable {orgId : UUID} {s s' : PageRun}

theorem backed_initial : Backed orgId initial.st where
  watermarked := fun t u c hu => by cases hu
  held := fun x hx => by cases hx
  seen := fun x hx => by cases hx

theorem backed_view (h : Backed orgId s.st) (now : DateTime) :
    Backed orgId (s.st.getBilling orgId now).1 := by
  unfold getBilling
  split
  · exact h
  · simp only
    rw [getCurrentUsage_state]
    refine h.read (getSubscriptionCached_db _) (getSubscriptionCached_cache _) fun x hx => ?_
    rw [getSubscriptionCached_redis]
    exact h.held x hx

theorem backed_fillCache {w : Nat} (h : Backed orgId s.st) (hok : s.InTurn orgId (.fillCache w))
    (hs : s.fillCache w = some s') : Backed orgId s'.st := by
  obtain ⟨sub, hrow, rfl⟩ := Option.map_eq_some_iff.mp hs
  refine h.of_keeps (.refl _) rfl h.held fun x hx _ => ?_
  rcases hok x hx sub hrow with hkey | hquiet
  · left
    rintro sub' ⟨⟩
    exact hkey
  · exact Or.inr hquiet

theorem readCounters_st {w : Nat} {period : Option (DateTime × DateTime)}
    (hs : s.readCounters orgId w period = some s') : s'.st = s.st := by
  unfold readCounters at hs
  split at hs
  · cases hs
  · simp only at hs
    split at hs
    · cases hs
      rfl
    · cases hs
      rfl

theorem backed_commitCounters {w : Nat} (h : Backed orgId s.st)
    (hs : s.commitCounters orgId w = some s') : Backed orgId s'.st := by
  obtain ⟨⟨start, stop, counts⟩, -, rfl⟩ := Option.map_eq_some_iff.mp hs
  exact h.of_keeps (keeps_upsertUsageCounters _ _ _ _ _) rfl h.held fun x hx hsees => Or.inl hsees

theorem backed_stage {w : Nat} {periodStart : Option DateTime} {i j : Option String} {b : Bool}
    {id : UUID} {t : DateTime} (h : Backed orgId s.st)
    (hok : s.InTurn orgId (.stage w periodStart i j b id t))
    (hs : s.stage w periodStart i j b id t = some s') : Backed orgId s'.st := by
  obtain ⟨sub, hrow, rfl⟩ := Option.map_eq_some_iff.mp hs
  split
  · exact h
  next db hstage =>
    obtain ⟨hw, hle⟩ := stage_reserves h.watermarked hstage
    obtain ⟨-, hsub⟩ := stage_frame hstage
    have hterms : ∀ x, (s.put { s.st with db := db }).st.terms = some x → s.st.terms = some x := by
      intro x hx
      rw [← hx]
      exact congrArg (Option.map Subscription.terms) hsub.symm
    have hcount : ∀ x c, s.st.terms = some x → x.1 = periodStart.getD sub.currentPeriodStart →
        ∀ m, s.st.db.largestSnapshot x.1 c ≤ m → 0 ≤ m →
          (∀ u, s.st.db.usage x.1 = some u → u.count c ≤ m) → db.largestSnapshot x.1 c ≤ m := by
      intro x c hx hp m hold hm hnew
      refine le_trans (hle x.1 c) ?_
      rw [if_pos hp]
      refine max_le hold ?_
      cases hu : s.st.db.usage x.1 with
      | none => exact hm
      | some u => exact hnew u hu
    refine ⟨hw, fun x hx c => ?_, fun x hx => ?_⟩
    · have hx := hterms x hx
      by_cases hp : x.1 = periodStart.getD sub.currentPeriodStart
      · refine hcount x c hx hp _ (h.held x hx c) ?_ fun u hu => ?_
        · exact le_max_of_le_left (SubscriptionPlan.base_nonneg _ _)
        · exact (hok x hx sub hrow hp.symm u hu).1 c
      · have hsame := hle x.1 c
        rw [if_neg hp] at hsame
        exact le_trans hsame (h.held x hx c)
    · have hx := hterms x hx
      by_cases hsees : s.st.Sees orgId x.1
      · exact Or.inl hsees
      · have hquiet := (h.seen x hx).resolve_left hsees
        refine Or.inr fun c => ?_
        by_cases hp : x.1 = periodStart.getD sub.currentPeriodStart
        · refine hcount x c hx hp _ (hquiet c) (SubscriptionPlan.base_nonneg _ _) fun u hu => ?_
          exact (hok x hx sub hrow hp.symm u hu).2.resolve_left hsees c
        · have hsame := hle x.1 c
          rw [if_neg hp] at hsame
          exact le_trans hsame (hquiet c)

/-- **The step lemma.** -/
theorem backed_step {a : PageAct} (h : Backed orgId s.st) (hok : s.InTurn orgId a)
    (hs : s.step orgId a = some s') : Backed orgId s'.st := by
  cases a with
  | org op => cases hs; exact h.apply hok
  | view now => cases hs; exact backed_view h now
  | fetchRow w => cases hs; exact h
  | fillCache w => exact backed_fillCache h hok hs
  | readCounters w period => rw [readCounters_st hs]; exact h
  | commitCounters w => exact backed_commitCounters h hs
  | stage w periodStart i j b id t => exact backed_stage h hok hs
  | deliver id ws =>
    cases hs
    exact h.of_keeps (keeps_deliver _ _ _) (deliver_settlement _ _ _).2 h.held
      fun x hx hsees => Or.inl hsees

/-- **A page shows no negative pending cost in a run in turn.**  In every state of every run
whose steps meet the condition, what a page shows as reported is at most what it shows in
total. -/
theorem pending_nonneg
    (h : GuardedRun.Reach (fun s a => s.step orgId a) (PageRun.InTurn orgId) initial s)
    {now : DateTime} {res : BillingResponse} (hres : (s.st.getBilling orgId now).2 = .ok res) :
    res.reportedOverageCost ≤ res.totalOverageCost ∧ 0 ≤ res.pendingOverageCost := by
  have hbacked : Backed orgId s.st :=
    h.invariant backed_initial fun _ _ _ hc hok hs => backed_step hc hok hs
  exact hbacked.pending hres

/-! ## Two runs -/

/-- As long as nothing is reserved, an operation that stages nothing is in turn. -/
theorem inTurn_of_no_reports {st : UsageState} {op : OrgOp} (h : st.db.reports = [])
    (hstages : op.stages st = []) : op.InTurn st orgId := by
  have hnone : ∀ t c, st.db.largestSnapshot t c = 0 := by
    intro t c
    unfold largestSnapshot
    rw [h]
    rfl
  have hquiet : ∀ x, st.Quiet x := fun x c => by
    rw [hnone]
    exact SubscriptionPlan.base_nonneg _ _
  have hheld : ∀ value x, st.Held orgId value x := fun value x c => le_max_of_le_left (hquiet x c)
  have hfits : op.Fits st orgId := by
    refine fun x _ => ⟨fun _ => ⟨hheld _ x, Or.inr (Or.inr (hquiet x))⟩, fun hmem => ?_⟩
    rw [hstages] at hmem
    exact absurd hmem List.not_mem_nil
  cases op with
  | rollback c n id => exact fun x _ _ _ _ _ => le_max_of_le_left (hquiet x c)
  | expireUsageKey t => exact fun x _ _ => hquiet x
  | resetHobby => exact fun _ _ x _ => hheld _ x
  | _ => exact hfits

/-- The step stages nothing, and nothing is reserved. -/
def reservesNothing (s : PageRun) : PageAct → Bool
  | .org op => s.st.db.reports.isEmpty && (op.stages s.st).isEmpty
  | .fillCache _ | .stage .. => false
  | _ => true

theorem inTurn_of_reservesNothing (s : PageRun) (a : PageAct) (h : reservesNothing s a = true) :
    s.InTurn orgId a := by
  cases a with
  | org op =>
    obtain ⟨hreports, hstages⟩ := Bool.and_eq_true_iff.mp h
    exact inTurn_of_no_reports (List.isEmpty_iff.mp hreports) (List.isEmpty_iff.mp hstages)
  | fillCache w => cases h
  | stage => cases h
  | _ => trivial

theorem ok_of_toOption {r : Except String BillingResponse} {res : BillingResponse}
    (h : r.toOption = some res) : r = .ok res := by
  cases r with
  | error e => cases h
  | ok r => cases h; rfl

/-- A webhook that warms the cache. -/
def warmCtx : HandlerCtx := ⟨true, true, 0, "none", []⟩

/-- A Pro period with six thousand evaluations of traces, whose counters are stored. -/
def toCounted : List PageAct :=
  [.org (.createOrganization .hobby 0),
    .org (.checkoutCompleted ⟨.pro, some "cus", "sub", 3600, 2595600⟩ warmCtx),
    .org (.increment .traceEvals 5000 "a"),
    .org (.increment .traceEvals 1000 "b"),
    .fetchRow 0,
    .readCounters 0 none,
    .commitCounters 0]

/-- The reporter stages a report of the current period. -/
def stageCurrent : PageAct := .stage 0 none none none false "rep" (DateTime.hours 2)

/-- The report is delivered. -/
def deliverReport : PageAct := .deliver "rep" [.attempt false (DateTime.hours 2), .recordItem "ii"]

/-- A thousand evaluations above the allowance are reported, and shown. -/
theorem pending_nonneg_delivered :
    ∃ (s : PageRun) (res : BillingResponse), (s.st.getBilling "org" 0).2 = .ok res ∧
      res.reportedOverageCost = 4 ∧ res.reportedOverageCost ≤ res.totalOverageCost ∧
      0 ≤ res.pendingOverageCost := by
  have hview : ((GuardedRun.run (GuardedRun.checked (fun s a => s.step "org" a) reservesNothing)
      initial toCounted).bind fun s => (s.step "org" stageCurrent).bind fun s₁ =>
        (s₁.step "org" deliverReport).bind fun s₂ =>
          (s₂.st.getBilling "org" 0).2.toOption.map fun res =>
            decide (s.st.terms = some (DateTime.hours 1, .pro) ∧
              s.st.cache.map Subscription.currentPeriodStart = some (DateTime.hours 1) ∧
              (s.st.db.usage (DateTime.hours 1)).map (fun u => UsageCategory.all.map u.count) =
                some [0, 6000, 0] ∧
              UsageCategory.all.map (s.st.redis.value (usageKey "org" (DateTime.hours 1))) =
                [0, 6000, 0] ∧
              res.reportedOverageCost = 4)) = some true := by
    decide +kernel
  obtain ⟨s, hs, hrest⟩ := Option.bind_eq_some_iff.mp hview
  obtain ⟨s₁, hs₁, hrest⟩ := Option.bind_eq_some_iff.mp hrest
  obtain ⟨s₂, hs₂, hrest⟩ := Option.bind_eq_some_iff.mp hrest
  obtain ⟨res, hres, hfacts⟩ := Option.map_eq_some_iff.mp hrest
  obtain ⟨hterms, hcache, hcount, hvalue, hreported⟩ := of_decide_eq_true hfacts
  have hres := ok_of_toOption hres
  have hreach := GuardedRun.Reach.run_checked .initial (@inTurn_of_reservesNothing "org") hs
  have hstage : s.InTurn "org" stageCurrent := by
    rintro x hx sub - - u hu
    obtain rfl : (DateTime.hours 1, SubscriptionPlan.pro) = x :=
      Option.some.inj (hterms.symm.trans hx)
    rw [hu] at hcount
    have hsame := List.map_inj_left.mp ((Option.some.inj hcount).trans hvalue.symm)
    refine ⟨fun c => le_max_of_le_right (hsame c (UsageCategory.mem_all c)).le, Or.inl ?_⟩
    intro row hrow
    rw [hrow] at hcache
    rw [Option.some.inj hcache]
  have hdeliver : s₁.InTurn "org" deliverReport := trivial
  obtain ⟨hle, hpending⟩ := pending_nonneg (.step (.step hreach hstage hs₁) hdeliver hs₂) hres
  exact ⟨s₂, res, hres, hreported, hle, hpending⟩

/-- **A negative pending cost.**  An increment that a delivered report has counted is rolled
back: the counter shows no overage, and the record four dollars of it. -/
theorem pending_negative :
    ¬ ∀ s, GuardedRun.Reach (fun s a => s.step "org" a) GuardedRun.Always initial s →
      ∀ sub, s.st.db.subscription = some sub → (getPlanConfig sub.plan).payAsYouGo = true →
        ∀ now res, (s.st.getBilling "org" now).2 = .ok res → 0 ≤ res.pendingOverageCost := by
  have hview : ((GuardedRun.run (fun s a => PageRun.step "org" s a) initial
      (toCounted ++ [stageCurrent, deliverReport, .org (.rollback .traceEvals 1000 "b")])).bind
        fun s => s.st.db.subscription.bind fun sub =>
          (s.st.getBilling "org" 0).2.toOption.map fun res =>
            decide ((getPlanConfig sub.plan).payAsYouGo = true ∧ res.totalOverageCost = 0 ∧
              res.reportedOverageCost = 4 ∧ res.pendingOverageCost = -4)) = some true := by
    decide +kernel
  intro hall
  obtain ⟨s, hs, hrest⟩ := Option.bind_eq_some_iff.mp hview
  obtain ⟨sub, hsub, hrest⟩ := Option.bind_eq_some_iff.mp hrest
  obtain ⟨res, hres, hfacts⟩ := Option.map_eq_some_iff.mp hrest
  obtain ⟨hplan, -, -, hpending⟩ := of_decide_eq_true hfacts
  have hshown := hall s (GuardedRun.reach_of_run hs) sub hsub hplan 0 res (ok_of_toOption hres)
  rw [hpending] at hshown
  exact absurd hshown (by norm_num)

end PageRun

end PandaProbe
