import PandaProbe.BillingPage

/-! # What the handlers reserve

A report reserves the counters that are stored when it is staged, and a handler syncs a period
before it stages it: so what a handler reserves is at most what is due in the period
(`Reserves`), and everything else it writes reserves nothing (`Keeps`).

`Turn` adds where a handler leaves the subscription and the cache; each handler has one lemma
that says so.
-/
namespace PandaProbe
open HighWater

namespace BillingDb

/-- No watermark is above what is reserved. -/
def Watermarked (db : BillingDb) : Prop :=
  ∀ t u c, db.usage t = some u → u.reported c ≤ db.largestSnapshot t c

/-- A change that reserves nothing. -/
structure Keeps (db db' : BillingDb) : Prop where
  snapshots : ∀ t c, db'.largestSnapshot t c ≤ db.largestSnapshot t c
  watermarked : db.Watermarked → db'.Watermarked

variable {db db' : BillingDb} {orgId : UUID} {t start stop : DateTime}

theorem Keeps.refl (db : BillingDb) : Keeps db db := ⟨fun _ _ => le_refl _, id⟩

theorem Keeps.trans {a b c : BillingDb} (h : Keeps a b) (h' : Keeps b c) : Keeps a c :=
  ⟨fun t f => le_trans (h'.snapshots t f) (h.snapshots t f),
    fun hw => h'.watermarked (h.watermarked hw)⟩

theorem largestSnapshot_congr (h : db'.reports = db.reports) (t : DateTime) (c : UsageCategory) :
    db'.largestSnapshot t c = db.largestSnapshot t c := by
  unfold largestSnapshot
  rw [h]

theorem Keeps.of_eq (husage : db'.usage = db.usage) (hreports : db'.reports = db.reports) :
    Keeps db db' := by
  refine ⟨fun t c => (largestSnapshot_congr hreports t c).le, fun hw t u c hu => ?_⟩
  rw [largestSnapshot_congr hreports]
  exact hw t u c (husage ▸ hu)

theorem keeps_putSubscription (db : BillingDb) (s : Subscription) :
    Keeps db (db.putSubscription s) := .of_eq rfl rfl

theorem keeps_updateSubscription (db : BillingDb) (f : Subscription → Subscription) :
    Keeps db (db.updateSubscription f) := .of_eq rfl rfl

/-- Writing a row that raises no watermark. -/
theorem keeps_putUsage {u : UsageRecord}
    (h : ∀ c, u.reported c = ((db.usage u.periodStart).map (fun v => v.reported c)).getD 0) :
    Keeps db (db.putUsage u) := by
  refine ⟨fun t c => le_refl _, fun hw t v c hv => ?_⟩
  change v.reported c ≤ db.largestSnapshot t c
  by_cases ht : t = u.periodStart
  · rw [putUsage_usage, ht, Function.update_self] at hv
    cases hv
    rw [h c, ht]
    cases hu : db.usage u.periodStart with
    | none => exact largestSnapshot_nonneg c
    | some v => exact hw _ v c hu
  · rw [putUsage_usage, Function.update_of_ne ht] at hv
    exact hw t v c hv

theorem keeps_getOrCreateUsageRecord (db : BillingDb) (orgId : UUID) (start stop : DateTime) :
    Keeps db (db.getOrCreateUsageRecord orgId start stop) := by
  unfold getOrCreateUsageRecord
  split
  · exact .refl db
  next hnone => exact keeps_putUsage fun c => by simp [UsageRecord.fresh, hnone]

theorem keeps_createUsageRecord (h : db.createUsageRecord orgId start stop = .ok db') :
    Keeps db db' := by
  obtain ⟨hnone, rfl⟩ := createUsageRecord_ok h
  exact keeps_putUsage fun c => by simp [UsageRecord.fresh, hnone]

theorem keeps_upsertUsageCounters (db : BillingDb) (orgId : UUID) (start stop : DateTime)
    (n : UsageCategory → Int) : Keeps db (db.upsertUsageCounters orgId start stop n) := by
  refine keeps_putUsage fun c => ?_
  cases hu : db.usage start with
  | none => simp [UsageRecord.fresh, hu]
  | some u => simp [db.usage_keyed start u hu, hu]

theorem keeps_markBilled (db : BillingDb) (start : DateTime) (i : Option String) :
    Keeps db (db.markBilled start i) := by
  unfold markBilled
  split
  · exact .refl db
  next u hu => exact keeps_putUsage fun c => by simp [db.usage_keyed start u hu, hu]

/-- A delivery moves watermarks up to what is reserved, and reserves nothing. -/
theorem keeps_deliver (db : BillingDb) (id : UUID) (ws : List DeliveryWrite) :
    Keeps db (db.deliver id ws) := by
  obtain ⟨g, hg, hreports⟩ := (OverageRun.deliver_cases db id ws).1
  refine ⟨fun t c => largestSnapshot_le (largestSnapshot_nonneg c) fun r hr ht => ?_,
    fun hw => OverageRun.deliver_reported_le hw id ws⟩
  rw [hreports] at hr
  obtain ⟨q, hq, rfl⟩ := List.mem_map.mp hr
  rw [(hg q).snapshot]
  exact le_largestSnapshot hq ((hg q).usageRecordId ▸ ht) c

/-- A new report reserves its snapshot, in its own period. -/
theorem largestSnapshot_addReport (db : BillingDb) (r : BillingReport) (t : DateTime)
    (c : UsageCategory) : (db.addReport r).largestSnapshot t c ≤
      if t = r.usageRecordId then max (db.largestSnapshot t c) (r.snapshot c)
      else db.largestSnapshot t c := by
  have hle : db.largestSnapshot t c ≤
      if t = r.usageRecordId then max (db.largestSnapshot t c) (r.snapshot c)
      else db.largestSnapshot t c := by
    split
    · exact le_max_left _ _
    · exact le_refl _
  refine largestSnapshot_le (le_trans (largestSnapshot_nonneg c) hle) fun q hq hqt => ?_
  rw [addReport_reports, List.mem_append, List.mem_singleton] at hq
  rcases hq with hq | rfl
  · exact le_trans (le_largestSnapshot hq hqt c) hle
  · rw [if_pos hqt.symm]
    exact le_max_right _ _

/-- **What `stage` reserves**: at most the stored counters, in its own period. -/
theorem stage_reserves {a : StageArgs} (hw : db.Watermarked) (h : db.stage t a = .ok db') :
    db'.Watermarked ∧ ∀ p c, db'.largestSnapshot p c ≤
      if p = t then max (db.largestSnapshot p c) (((db.usage p).map (fun u => u.count c)).getD 0)
      else db.largestSnapshot p c := by
  rcases stage_cases h with rfl | ⟨u, customer, hu, rfl⟩
  · refine ⟨hw, fun p c => ?_⟩
    split
    · exact le_max_left _ _
    · exact le_refl _
  · have hkey : u.periodStart = t := db.usage_keyed t u hu
    generalize hr : stageReport u (byCreation (db.reports.filter (fun r => r.usageRecordId = t))) a
      customer = r
    have hid : r.usageRecordId = t := hr ▸ hkey
    refine ⟨fun p v c hv => ?_, fun p c => le_trans (largestSnapshot_addReport db r p c) ?_⟩
    · exact le_trans (hw p v c hv) (largestSnapshot_mono (List.subset_append_left _ _) p c)
    · rw [hid]
      split
      next hp =>
        subst hp
        -- the snapshot is the stored counter, or what was reserved before
        have hcount : r.snapshot c = snapshotCount u
            (byCreation (db.reports.filter (fun r => r.usageRecordId = p))) c := by
          rw [← hr]
          rfl
        have hreserved := OverageRun.reservedCount_le_of (hw p u c hu)
        rw [hcount, hu]
        refine max_le (le_max_left _ _) (max_le ?_ (le_max_right _ _))
        exact le_trans hreserved (le_max_left _ _)
      · exact le_refl _

end BillingDb

namespace UsageState
open BillingDb
variable {orgId : UUID} {st st' st₁ : UsageState} {l : List DateTime}

theorem keeps_syncToDatabase (period : Option (DateTime × DateTime)) :
    Keeps st.db (st.syncToDatabase orgId period).db := by
  unfold syncToDatabase
  split
  · exact .refl _
  · simp only
    split
    · exact .refl _
    · exact keeps_upsertUsageCounters _ _ _ _ _

/-- After a sync of a period its stored counters are what was due. -/
theorem count_syncToDatabase (start stop : DateTime) (c : UsageCategory) :
    (((st.syncToDatabase orgId (some (start, stop))).db.usage start).map
      (fun u => u.count c)).getD 0 = st.due orgId start c := by
  rw [syncToDatabase_some, due]
  by_cases hempty : st.hashEmpty (usageKey orgId start) = true
  · rw [if_pos hempty, if_pos hempty]
  · rw [if_neg hempty, if_neg hempty]
    simp only [upsertUsageCounters_usage, if_true]
    rfl

/-! ## What the handlers reserve -/

/-- A change of the rows that reserves at most what is due, in periods of a list. -/
structure Reserves (orgId : UUID) (l : List DateTime) (st : UsageState) (db : BillingDb) : Prop where
  snapshots : ∀ t c, db.largestSnapshot t c ≤
    if t ∈ l then max (st.db.largestSnapshot t c) (st.due orgId t c) else st.db.largestSnapshot t c
  watermarked : db.Watermarked

theorem Reserves.of_keeps {db : BillingDb} (hw : st.db.Watermarked) (h : Keeps st.db db)
    (l : List DateTime) : Reserves orgId l st db := by
  refine ⟨fun t c => le_trans (h.snapshots t c) ?_, h.watermarked hw⟩
  split
  · exact le_max_left _ _
  · exact le_refl _

theorem Reserves.trans_keeps {db db' : BillingDb} (h : Reserves orgId l st db) (hk : Keeps db db') :
    Reserves orgId l st db' :=
  ⟨fun t c => le_trans (hk.snapshots t c) (h.snapshots t c), hk.watermarked h.watermarked⟩

/-- A sync of a period and a report staged from it. -/
theorem reserves_stage {start stop : DateTime} {a : StageArgs} {db : BillingDb}
    (hw : st.db.Watermarked) (hl : start ∈ l)
    (h : (st.syncToDatabase orgId (some (start, stop))).db.stage start a = .ok db) :
    Reserves orgId l st db := by
  have hsync := @keeps_syncToDatabase orgId st (some (start, stop))
  obtain ⟨hw', hle⟩ := stage_reserves (hsync.watermarked hw) h
  refine ⟨fun t c => le_trans (hle t c) ?_, hw'⟩
  have hold := hsync.snapshots t c
  by_cases ht : t = start
  · subst ht
    rw [if_pos rfl, if_pos hl, count_syncToDatabase]
    exact max_le_max_right _ hold
  · rw [if_neg ht]
    split
    · exact le_max_of_le_left hold
    · exact hold

/-- A report of a period, if the subscription has a customer, and its delivery. -/
theorem reserves_reportOveragesToStripe {start stop : DateTime} {ctx : HandlerCtx}
    {t : Option DateTime} {i : Option String} {db : BillingDb} (hw : st.db.Watermarked)
    (hl : start ∈ l) (ht : ∀ sub, st.db.subscription = some sub →
      t.getD sub.currentPeriodStart = start)
    (h : (st.syncToDatabase orgId (some (start, stop))).db.reportOveragesToStripe ctx t i = .ok db) :
    Reserves orgId l st db := by
  have hsync := @keeps_syncToDatabase orgId st (some (start, stop))
  have hsub := (@syncToDatabase_frame orgId st (some (start, stop))).2
  unfold BillingDb.reportOveragesToStripe at h
  rw [hsub] at h
  cases hs : st.db.subscription with
  | none =>
    rw [hs] at h
    cases h
    exact .of_keeps hw hsync l
  | some sub =>
    rw [hs] at h
    simp only at h
    split at h
    · cases h
      exact .of_keeps hw hsync l
    · split at h
      · cases h
      next db₁ hstage =>
        cases h
        rw [ht sub hs] at hstage
        exact (reserves_stage hw hl hstage).trans_keeps (keeps_deliver _ _ _)

/-- The period an invoice names is synced, unless its record is closed. -/
theorem syncInvoicePeriod_cases {obj : InvoiceEvent} {usage : UsageRecord}
    (h : st.syncInvoicePeriod orgId obj = .ok (st₁, usage)) :
    usage.periodStart ∈ PeriodKeys.invoiceStart obj ∧ ((st₁ = st ∧ usage.billed = true) ∨
      ∃ stop, st₁ = st.syncToDatabase orgId (some (usage.periodStart, stop))) := by
  unfold syncInvoicePeriod at h
  split at h
  · cases h
  next start stop hperiod =>
    have hmem : start ∈ PeriodKeys.invoiceStart obj := PeriodKeys.mem_invoiceStart hperiod
    have hkey : ∀ {db : BillingDb} {u : UsageRecord}, db.getCurrentUsageRecord start = some u →
        u.periodStart = start := fun hu => BillingDb.usage_keyed _ _ _ hu
    simp only at h
    split at h
    next u hu =>
      split at h
      · cases h
      · split at h
        next hbilled =>
          cases h
          exact ⟨hkey hu ▸ hmem, Or.inl ⟨rfl, hbilled⟩⟩
        · split at h
          · cases h
          next v hv =>
            cases h
            exact ⟨hkey hv ▸ hmem, Or.inr ⟨stop, by rw [hkey hv]⟩⟩
    · split at h
      · cases h
      next v hv =>
        cases h
        exact ⟨hkey hv ▸ hmem, Or.inr ⟨stop, by rw [hkey hv]⟩⟩

/-- **What a handler that goes through does**: the counters stay; it reserves at most what is
due in the periods it stages; it leaves the subscription in one of its terms; and it leaves
the cache alone, or the stored row in it. -/
structure Turn (orgId : UUID) (op : OrgOp) (st st' : UsageState) : Prop where
  redis : st'.redis = st.redis
  reserves : Reserves orgId (op.stages st) st st'.db
  lands : ∀ x, st'.terms = some x → x ∈ op.lands st orgId
  cache : (st'.cache = st.cache ∧ (op.warms = true → st'.terms = st.terms)) ∨
    ∀ sub, st'.cache = some sub → st'.db.subscription = some sub

/-- What `_warm_sub_cache` leaves in the cache. -/
theorem cache_warmSubCache (st : UsageState) (ctx : HandlerCtx) :
    ((st.warmSubCache ctx).cache = st.cache ∧ ctx.cacheWarmed = false) ∨
      (st.warmSubCache ctx).cache = (st.warmSubCache ctx).db.subscription := by
  unfold warmSubCache
  split
  · exact Or.inr rfl
  next h => exact Or.inl ⟨rfl, by simpa using h⟩

theorem redis_warmSubCache (st : UsageState) (ctx : HandlerCtx) :
    (st.warmSubCache ctx).redis = st.redis := by
  unfold warmSubCache
  split <;> rfl

@[simp] theorem terms_warmSubCache (st : UsageState) (ctx : HandlerCtx) :
    (st.warmSubCache ctx).terms = st.terms := by
  rw [terms, warmSubCache_db]
  rfl

theorem redis_syncToDatabase (period : Option (DateTime × DateTime)) :
    (st.syncToDatabase orgId period).redis = st.redis := by
  unfold syncToDatabase
  split
  · rfl
  · simp only
    split <;> rfl

theorem cache_syncToDatabase (period : Option (DateTime × DateTime)) :
    (st.syncToDatabase orgId period).cache = st.cache := by
  unfold syncToDatabase
  split
  · rfl
  · simp only
    split <;> rfl

theorem stored_of_invoiced {obj : InvoiceEvent} {sub : Subscription}
    (h : OrgOp.invoiced st obj = some sub) : st.db.subscription = some sub := by
  obtain ⟨sid, -, hfound⟩ := Option.bind_eq_some_iff.mp h
  exact ((getSubscriptionByStripeSubscription_eq_some _).mp hfound).1

/-- A handler that ends in `_warm_sub_cache`. -/
theorem turn_warm {op : OrgOp} {ctx : HandlerCtx} (hredis : st₁.redis = st.redis)
    (hcache : st₁.cache = st.cache) (hwarms : op.warms = true → ctx.cacheWarmed = true)
    (hres : Reserves orgId (op.stages st) st st₁.db)
    (hlands : ∀ x, st₁.terms = some x → x ∈ op.lands st orgId) :
    Turn orgId op st (st₁.warmSubCache ctx) := by
  refine ⟨(redis_warmSubCache st₁ ctx).trans hredis, by rw [warmSubCache_db]; exact hres,
    fun x hx => hlands x (by rwa [terms_warmSubCache] at hx), ?_⟩
  rcases cache_warmSubCache st₁ ctx with ⟨hsame, hcold⟩ | hwarm
  · refine Or.inl ⟨hsame.trans hcache, fun h => ?_⟩
    rw [hwarms h] at hcold
    cases hcold
  · exact Or.inr fun sub hsub => hwarm ▸ hsub

/-- An operation that leaves the subscription and the cache alone. -/
theorem turn_stays {op : OrgOp} (hredis : st'.redis = st.redis) (hcache : st'.cache = st.cache)
    (hsub : st'.db.subscription = st.db.subscription)
    (hres : Reserves orgId (op.stages st) st st'.db)
    (hlands : st.terms.toList ⊆ op.lands st orgId) : Turn orgId op st st' := by
  have hterms : st'.terms = st.terms := congrArg (Option.map Subscription.terms) hsub
  refine ⟨hredis, hres, fun x hx => hlands ?_, Or.inl ⟨hcache, fun _ => hterms⟩⟩
  exact Option.mem_toList.mpr (hterms ▸ hx)

/-! ### The handlers -/

theorem turn_createOrganization {plan : SubscriptionPlan} {now : DateTime}
    (hw : st.db.Watermarked) (h : st.createOrganization orgId plan now = .ok st') :
    Turn orgId (.createOrganization plan now) st st' := by
  unfold createOrganization at h
  split at h
  · cases h
  · simp only at h
    split at h
    · cases h
    next db hdb =>
      cases h
      refine ⟨rfl, .of_keeps hw ((keeps_createUsageRecord hdb).trans ?_) _, ?_,
        Or.inl ⟨rfl, fun hwarm => by cases hwarm⟩⟩
      · exact keeps_putSubscription _ _
      · rintro x ⟨⟩
        exact List.mem_singleton_self _

theorem turn_handleCheckoutCompleted (obj : CheckoutEvent) (ctx : HandlerCtx)
    (hw : st.db.Watermarked) :
    Turn orgId (.checkoutCompleted obj ctx) st (st.handleCheckoutCompleted orgId obj ctx) := by
  refine turn_warm rfl rfl id (.of_keeps hw ?_ _) fun x hx => ?_
  · exact (keeps_putSubscription _ _).trans (keeps_getOrCreateUsageRecord _ _ _ _)
  · rw [terms, getOrCreateUsageRecord_subscription, putSubscription_subscription] at hx
    cases hx
    exact List.mem_singleton_self _

/-- The end of a paid invoice, after what closed its period. -/
theorem turn_renew {obj : InvoiceEvent} {live : Int × Int} {ctx : HandlerCtx} {sub : Subscription}
    (hfound : OrgOp.invoiced st obj = some sub) (hredis : st₁.redis = st.redis)
    (hcache : st₁.cache = st.cache) (hsub : st₁.db.subscription = st.db.subscription)
    (hres : Reserves orgId ((OrgOp.invoicePaid obj live ctx).stages st) st st₁.db) :
    Turn orgId (.invoicePaid obj live ctx) st (st₁.renew orgId ctx
      (DateTime.fromTimestamp live.1) (DateTime.fromTimestamp live.2)) := by
  have hstored := stored_of_invoiced hfound
  refine turn_warm hredis hcache id (hres.trans_keeps ?_) fun x hx => ?_
  · exact ((keeps_updateSubscription _ _).trans (keeps_getOrCreateUsageRecord _ _ _ _)).trans
      (keeps_updateSubscription _ _)
  simp only [terms, updateSubscription_subscription, getOrCreateUsageRecord_subscription,
    advancePeriod_subscription, hsub, hstored, Option.map_some] at hx
  simp only [OrgOp.lands, OrgOp.opens, hfound]
  exact Option.mem_toList.mpr hx

theorem turn_handleInvoicePaid {obj : InvoiceEvent} {live : Int × Int} {ctx : HandlerCtx}
    (hw : st.db.Watermarked) (h : st.handleInvoicePaid orgId obj live ctx = .ok st') :
    st' = st ∨ Turn orgId (.invoicePaid obj live ctx) st st' := by
  unfold handleInvoicePaid at h
  split at h
  · cases h
    exact Or.inl rfl
  next sub hfound =>
    have hfound : OrgOp.invoiced st obj = some sub := hfound
    right
    simp only at h
    split at h
    next hrenewal =>
      have hstages : (OrgOp.invoicePaid obj live ctx).stages st = PeriodKeys.invoiceStart obj :=
        if_pos ⟨by rw [hfound]; rfl, hrenewal⟩
      split at h
      · cases h
      · split at h
        · cases h
        next st₁ usage hsync =>
          obtain ⟨hmem, hcases⟩ := syncInvoicePeriod_cases hsync
          have hframe : st₁.redis = st.redis ∧ st₁.cache = st.cache ∧
              st₁.db.subscription = st.db.subscription ∧ Keeps st.db st₁.db := by
            rcases hcases with ⟨rfl, -⟩ | ⟨stop, rfl⟩
            · exact ⟨rfl, rfl, rfl, .refl _⟩
            · exact ⟨redis_syncToDatabase _, cache_syncToDatabase _, (syncToDatabase_frame _).2,
                keeps_syncToDatabase _⟩
          obtain ⟨hredis, hcache, hsub, hkeeps⟩ := hframe
          split at h
          · cases h
            exact turn_renew hfound hredis hcache hsub (.of_keeps hw hkeeps _)
          next hopen =>
            split at h
            · cases h
            next db hstage =>
              cases h
              -- an open record was synced before it is staged
              rcases hcases with ⟨-, hbilled⟩ | ⟨stop, rfl⟩
              · exact absurd hbilled hopen
              · refine turn_renew hfound hredis hcache ?_ ?_
                · rw [markBilled_subscription, (stage_frame hstage).2, hsub]
                · rw [hstages]
                  exact (reserves_stage hw hmem hstage).trans_keeps (keeps_markBilled _ _ _)
    · cases h
      exact turn_renew hfound rfl rfl rfl (.of_keeps hw (.refl _) _)

theorem turn_handleInvoiceCreated {obj : InvoiceEvent} {ctx : HandlerCtx}
    (hw : st.db.Watermarked) (h : st.handleInvoiceCreated orgId obj ctx = .ok st') :
    st' = st ∨ Turn orgId (.invoiceCreated obj ctx) st st' := by
  unfold handleInvoiceCreated at h
  split at h
  · cases h
    exact Or.inl rfl
  next hrenewal =>
    split at h
    · cases h
      exact Or.inl rfl
    next sub hfound =>
      have hfound : OrgOp.invoiced st obj = some sub := hfound
      have hstages : (OrgOp.invoiceCreated obj ctx).stages st = PeriodKeys.invoiceStart obj :=
        if_pos ⟨by rw [hfound]; rfl, not_not.mp hrenewal⟩
      split at h
      · cases h
        exact Or.inl rfl
      · split at h
        · cases h
        · split at h
          · cases h
          next st₁ usage hsync =>
            obtain ⟨hmem, hcases⟩ := syncInvoicePeriod_cases hsync
            split at h
            next hbilled =>
              cases h
              rcases hcases with ⟨rfl, -⟩ | ⟨stop, rfl⟩
              · exact Or.inl rfl
              · exact Or.inr (turn_stays (redis_syncToDatabase _) (cache_syncToDatabase _)
                  (syncToDatabase_frame _).2 (.of_keeps hw (keeps_syncToDatabase _) _) fun _ hx => hx)
            next hopen =>
              split at h
              · cases h
              next db hreport =>
                cases h
                rcases hcases with ⟨-, hbilled⟩ | ⟨stop, rfl⟩
                · exact absurd hbilled hopen
                · refine Or.inr (turn_stays (redis_syncToDatabase _) (cache_syncToDatabase _) ?_ ?_
                    fun _ hx => hx)
                  · exact (reportOveragesToStripe_frame hreport).2.trans (syncToDatabase_frame _).2
                  · rw [hstages]
                    exact reserves_reportOveragesToStripe hw hmem (fun _ _ => rfl) hreport

theorem turn_handleInvoicePaymentFailed (obj : InvoiceEvent) (ctx : HandlerCtx)
    (hw : st.db.Watermarked) :
    st.handleInvoicePaymentFailed obj ctx = st ∨
      Turn orgId (.invoicePaymentFailed obj ctx) st (st.handleInvoicePaymentFailed obj ctx) := by
  unfold handleInvoicePaymentFailed
  split
  · exact Or.inl rfl
  · refine Or.inr (turn_warm rfl rfl (fun h => by cases h) (.of_keeps hw ?_ _) fun x hx => ?_)
    · exact keeps_updateSubscription _ _
    rw [terms, updateSubscription_subscription, Option.map_map] at hx
    exact Option.mem_toList.mpr hx

theorem turn_handleSubscriptionUpdated (obj : SubscriptionEvent) (ctx : HandlerCtx)
    (hw : st.db.Watermarked) :
    st.handleSubscriptionUpdated obj ctx = st ∨
      Turn orgId (.subscriptionUpdated obj ctx) st (st.handleSubscriptionUpdated obj ctx) := by
  unfold handleSubscriptionUpdated
  split
  · exact Or.inl rfl
  next sub hfound =>
    have hstored := (getSubscriptionByStripeSubscription_eq_some _).mp hfound
    refine Or.inr (turn_warm rfl rfl id (.of_keeps hw ?_ _) fun x hx => ?_)
    · split <;> exact .of_eq rfl rfl
    · simp only [OrgOp.lands, OrgOp.opens, hfound]
      refine Option.mem_toList.mpr ?_
      rw [← hx]
      cases hperiod : eventPeriod obj with
      | none => simp [terms, Subscription.terms, hstored.1]
      | some p => simp [terms, Subscription.terms, hstored.1]

/-- The first half of a deletion syncs the current period, and may stage it. -/
theorem finalizeOverages_spec {sub : Subscription} {ctx : HandlerCtx} {b : Bool}
    (hw : st.db.Watermarked) (hsub : st.db.subscription = some sub)
    (h : st.finalizeOverages orgId sub ctx = .ok (st', b)) :
    st'.cache = st.cache ∧ st'.db.subscription = st.db.subscription ∧
      Reserves orgId [sub.currentPeriodStart] st st'.db := by
  have hsync : st.syncToDatabase orgId none =
      st.syncToDatabase orgId (some (sub.currentPeriodStart, sub.currentPeriodEnd)) := by
    unfold syncToDatabase
    rw [hsub]
    rfl
  have hkeeps := @keeps_syncToDatabase orgId st none
  unfold finalizeOverages at h
  split at h
  · simp only at h
    split at h
    · split at h
      · cases h
      next db hreport =>
        cases h
        refine ⟨cache_syncToDatabase _, ?_, ?_⟩
        · exact (reportOveragesToStripe_frame hreport).2.trans (syncToDatabase_frame _).2
        · rw [hsync] at hreport
          refine reserves_reportOveragesToStripe hw (List.mem_singleton_self _) ?_ hreport
          intro sub' hsub'
          rw [hsub] at hsub'
          cases hsub'
          rfl
    · cases h
      exact ⟨cache_syncToDatabase _, (syncToDatabase_frame _).2, .of_keeps hw hkeeps _⟩
  · cases h
    exact ⟨rfl, rfl, .of_keeps hw (.refl _) _⟩

theorem subscription_of_createUsageRecord {db db' : BillingDb} {start stop : DateTime}
    (h : db.createUsageRecord orgId start stop = .ok db') : db'.subscription = db.subscription := by
  obtain ⟨-, rfl⟩ := createUsageRecord_ok h
  rfl

theorem subscription_closeOldPeriod (st : UsageState) (sub : Subscription) :
    (st.closeOldPeriod sub).subscription = st.db.subscription := by
  obtain hsame | ⟨-, hclosed⟩ := closeOldPeriod_cases st sub
  · rw [hsame]
  · rw [hclosed, markBilled_subscription]

theorem keeps_closeOldPeriod (st : UsageState) (sub : Subscription) :
    Keeps st.db (st.closeOldPeriod sub) := by
  obtain hsame | ⟨-, hclosed⟩ := closeOldPeriod_cases st sub
  · rw [hsame]
    exact .refl _
  · rw [hclosed]
    exact keeps_markBilled _ _ _

/-- The record of a new period is refused only if there is one. -/
theorem isSome_of_createUsageRecord_error {db : BillingDb} {start stop : DateTime} {e : BillingError}
    (h : db.createUsageRecord orgId start stop = .error e) : (db.usage start).isSome = true := by
  unfold createUsageRecord at h
  split at h
  next u hu => rw [hu]; rfl
  · cases h

theorem turn_handleSubscriptionDeleted (sid : String) (ctx : HandlerCtx) (hw : st.db.Watermarked) :
    (st.handleSubscriptionDeleted orgId sid ctx).1 = st ∨ Turn orgId (.subscriptionDeleted sid ctx)
      st (st.handleSubscriptionDeleted orgId sid ctx).1 := by
  unfold handleSubscriptionDeleted
  split
  · exact Or.inl rfl
  next sub hfound =>
    have hstored := ((getSubscriptionByStripeSubscription_eq_some _).mp hfound).1
    have hstages : (OrgOp.subscriptionDeleted sid ctx).stages st = [sub.currentPeriodStart] := by
      simp [OrgOp.stages, hfound]
    split
    · exact Or.inl rfl
    next st₁ reported hfin =>
      obtain ⟨hcache, hsub, hres⟩ := finalizeOverages_spec hw hstored hfin
      obtain ⟨hredis, hadds⟩ := moves_finalizeOverages (l := []) hfin
      rw [← hstages] at hres
      simp only
      split
      next e herror =>
        cases reported with
        | false => exact Or.inl rfl
        | true =>
          -- the record of the new period was known before the deletion
          have hknown : st.db.Knows ctx.now := by
            have hsome := isSome_of_createUsageRecord_error herror
            rw [updateSubscription_usage] at hsome
            have hrecord := addsOnly_closeOldPeriod (l := []) sub ctx.now (Or.inr hsome)
            have hbefore := hadds ctx.now (hrecord.resolve_right List.not_mem_nil)
            exact hbefore.resolve_right List.not_mem_nil
          refine Or.inr (turn_stays hredis hcache hsub hres ?_)
          simp only [OrgOp.lands]
          rw [if_pos]
          · exact List.subset_append_left _ _
          · rw [terms, Option.map_map]
            exact hknown.symm
      next db hdb =>
        refine Or.inr (turn_warm hredis hcache id (hres.trans_keeps ?_) fun x hx => ?_)
        · exact ((keeps_closeOldPeriod st₁ sub).trans (keeps_updateSubscription _ _)).trans
            (keeps_createUsageRecord hdb)
        · have hdown :
              st₁.db.subscription.map (Subscription.terms ∘ downgraded ctx.now) = some x := by
            rw [← hx, terms, subscription_of_createUsageRecord hdb, updateSubscription_subscription,
              subscription_closeOldPeriod, Option.map_map]
          rw [hsub, hstored] at hdown
          have hopen : x ∈ ((OrgOp.subscriptionDeleted sid ctx).opens st orgId).toList := by
            simp only [OrgOp.opens, hfound]
            exact Option.mem_toList.mpr hdown
          simp only [OrgOp.lands]
          split
          · exact List.mem_append_right _ hopen
          · exact hopen

end UsageState

end PandaProbe
