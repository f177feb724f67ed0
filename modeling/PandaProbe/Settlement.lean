import PandaProbe.BillingHandlers

/-! # What the handlers do to the closing of periods

Of a usage record only three fields say how its period was settled: its end, whether it
is billed, and by which invoice (`settlement`).  Syncs, stagings and deliveries leave
the settlement of every record alone and at most add an open record (`Opens`); closing a
period goes through `mark_billed` alone.
-/
namespace PandaProbe
namespace BillingDb

/-- How the record of a period stands: its end, whether it is billed, and its invoice. -/
def settlement (db : BillingDb) (t : DateTime) : Option (DateTime × Bool × Option String) :=
  (db.usage t).map (fun u => (u.periodEnd, u.billed, u.stripeInvoiceId))

theorem settlement_eq_some {db : BillingDb} {t : DateTime} {u : UsageRecord}
    (h : db.usage t = some u) :
    db.settlement t = some (u.periodEnd, u.billed, u.stripeInvoiceId) := by
  simp [settlement, h]

/-- Every settlement is kept, and a record that was not there is open. -/
def Opens (db db' : BillingDb) : Prop :=
  ∀ t, db'.settlement t = db.settlement t ∨
    (db.settlement t = none ∧ ∃ e, db'.settlement t = some (e, false, none))

theorem Opens.of_eq {db db' : BillingDb} (h : db'.settlement = db.settlement) : Opens db db' :=
  fun t => Or.inl (congrFun h t)

theorem Opens.refl (db : BillingDb) : Opens db db := .of_eq rfl

theorem Opens.trans {a b c : BillingDb} (h : Opens a b) (h' : Opens b c) : Opens a c := by
  intro t
  rcases h t with he | ⟨hn, e, he⟩
  · rcases h' t with he' | ⟨hn', e', he'⟩
    · exact Or.inl (he'.trans he)
    · exact Or.inr ⟨he ▸ hn', e', he'⟩
  · rcases h' t with he' | ⟨hn', -, -⟩
    · exact Or.inr ⟨hn, e, he'.trans he⟩
    · rw [he] at hn'
      cases hn'

/-- A closed record was closed before, the same way. -/
theorem Opens.of_billed {db db' : BillingDb} (h : Opens db db') {t e : DateTime}
    {i : Option String} (hb : db'.settlement t = some (e, true, i)) :
    db.settlement t = some (e, true, i) := by
  rcases h t with he | ⟨-, e', he⟩
  · exact he ▸ hb
  · rw [he] at hb
    cases hb

/-- A record that was there stands as it did. -/
theorem Opens.of_some {db db' : BillingDb} (h : Opens db db') {t : DateTime}
    {x : DateTime × Bool × Option String} (hx : db.settlement t = some x) :
    db'.settlement t = some x := by
  rcases h t with he | ⟨hn, -⟩
  · exact he.trans hx
  · rw [hn] at hx
    cases hx

/-! ## The repository operations -/

theorem opens_getOrCreateUsageRecord (db : BillingDb) (orgId : UUID) (a b : DateTime) :
    Opens db (db.getOrCreateUsageRecord orgId a b) := by
  intro t
  simp only [settlement, getOrCreateUsageRecord_usage]
  by_cases ht : t = a
  · subst ht
    cases hu : db.usage t with
    | none => exact Or.inr ⟨rfl, b, by simp [UsageRecord.fresh]⟩
    | some u => exact Or.inl (by simp)
  · exact Or.inl (by simp [ht])

theorem opens_upsertUsageCounters (db : BillingDb) (orgId : UUID) (a b : DateTime)
    (n : UsageCategory → Int) : Opens db (db.upsertUsageCounters orgId a b n) := by
  intro t
  simp only [settlement, upsertUsageCounters_usage]
  by_cases ht : t = a
  · subst ht
    cases hu : db.usage t with
    | none => exact Or.inr ⟨rfl, b, by simp [UsageRecord.fresh]⟩
    | some u => exact Or.inl (by simp)
  · exact Or.inl (by simp [ht])

/-- `stage` writes no usage row and no subscription row. -/
theorem stage_frame {db db' : BillingDb} {t : DateTime} {a : StageArgs}
    (h : db.stage t a = .ok db') : db'.usage = db.usage ∧ db'.subscription = db.subscription := by
  unfold stage at h
  split at h
  · cases h; exact ⟨rfl, rfl⟩
  · split at h
    · cases h
    · cases h; exact ⟨rfl, rfl⟩
    · cases h; exact ⟨rfl, rfl⟩

/-- A delivery moves watermarks and report rows only. -/
theorem deliver_settlement (db : BillingDb) (id : UUID) (ws : List DeliveryWrite) :
    (db.deliver id ws).settlement = db.settlement ∧
      (db.deliver id ws).subscription = db.subscription := by
  unfold deliver
  simp only
  split
  · exact ⟨rfl, rfl⟩
  next r _ =>
    split
    · exact ⟨rfl, rfl⟩
    next usage hu =>
      refine ⟨?_, rfl⟩
      funext t
      have hkey : usage.periodStart = r.usageRecordId := db.usage_keyed _ _ hu
      simp only [settlement, putUsage, finishUsage]
      by_cases ht : t = r.usageRecordId
      · rw [ht, hkey, Function.update_self]
        change _ = (db.usage r.usageRecordId).map _
        rw [show db.usage r.usageRecordId = some usage from hu]
        rfl
      · rw [hkey, Function.update_of_ne ht]

theorem reportOveragesToStripe_frame {db db' : BillingDb} {ctx : HandlerCtx}
    {t : Option DateTime} {i : Option String}
    (h : db.reportOveragesToStripe ctx t i = .ok db') :
    db'.settlement = db.settlement ∧ db'.subscription = db.subscription := by
  unfold reportOveragesToStripe at h
  split at h
  · cases h; exact ⟨rfl, rfl⟩
  · split at h
    · cases h; exact ⟨rfl, rfl⟩
    · split at h
      · cases h
      next hstage =>
        cases h
        obtain ⟨hu, hs⟩ := stage_frame hstage
        obtain ⟨hset, hsub⟩ := deliver_settlement _ ctx.reportId ctx.delivery
        refine ⟨hset.trans ?_, hsub.trans hs⟩
        funext x
        simp only [settlement, hu]

theorem markBilled_settlement (db : BillingDb) (a t : DateTime) (i : Option String) :
    (db.markBilled a i).settlement t =
      if t = a then (db.settlement a).map (fun x => (x.1, true, i)) else db.settlement t := by
  simp only [settlement, markBilled_usage]
  by_cases ht : t = a
  · simp [ht, Option.map_map, Function.comp_def]
  · simp [ht]

end BillingDb

/-! ## The handlers -/

namespace UsageState
open BillingDb
variable {orgId : UUID} {st : UsageState}

theorem syncToDatabase_frame (period : Option (DateTime × DateTime)) :
    Opens st.db (st.syncToDatabase orgId period).db ∧
      (st.syncToDatabase orgId period).db.subscription = st.db.subscription := by
  unfold syncToDatabase
  split
  · exact ⟨.refl _, rfl⟩
  · simp only
    split
    · exact ⟨.refl _, rfl⟩
    · exact ⟨opens_upsertUsageCounters _ _ _ _ _, rfl⟩

theorem syncToDatabase_some (start stop : DateTime) :
    st.syncToDatabase orgId (some (start, stop)) =
      if st.hashEmpty (usageKey orgId start) then st
      else
        let counts := st.redis.value (usageKey orgId start)
        { st with db := st.db.upsertUsageCounters orgId start stop counts } := rfl

/-- A record a sync of a period creates has that period's end. -/
theorem syncToDatabase_periodEnd {start stop : DateTime} {u : UsageRecord}
    (hmissing : st.db.usage start = none)
    (hu : (st.syncToDatabase orgId (some (start, stop))).db.usage start = some u) :
    u.periodEnd = stop := by
  rw [syncToDatabase_some] at hu
  split at hu
  · rw [hmissing] at hu
    cases hu
  · rw [upsertUsageCounters_usage, if_pos rfl, hmissing] at hu
    cases hu
    rfl

/-- **What `_sync_invoice_period` returns**: the record of exactly the period the invoice
names, in a state that has at most one more open record. -/
theorem syncInvoicePeriod_spec {obj : InvoiceEvent} {start stop : DateTime}
    (hperiod : invoicePeriod obj = .ok (start, stop)) {st' : UsageState} {usage : UsageRecord}
    (h : st.syncInvoicePeriod orgId obj = .ok (st', usage)) :
    Opens st.db st'.db ∧ st'.db.subscription = st.db.subscription ∧
      st'.db.usage start = some usage ∧ usage.periodEnd = stop := by
  obtain ⟨hopen, hsub⟩ := @syncToDatabase_frame orgId st (some (start, stop))
  simp only [syncInvoicePeriod, hperiod, getCurrentUsageRecord] at h
  cases hu : st.db.usage start with
  | some u =>
    simp only [hu] at h
    split at h
    · cases h
    next hend =>
      split at h
      · cases h
        exact ⟨.refl _, rfl, hu, not_not.mp hend⟩
      · split at h
        · cases h
        next u' hu' =>
          cases h
          refine ⟨hopen, hsub, hu', ?_⟩
          -- the sync keeps the end of a record that was there
          have hkeep := hopen.of_some (settlement_eq_some hu)
          rw [settlement_eq_some hu'] at hkeep
          simp only [Option.some.injEq, Prod.mk.injEq] at hkeep
          exact hkeep.1.trans (not_not.mp hend)
  | none =>
    simp only [hu] at h
    split at h
    · cases h
    next u' hu' =>
      cases h
      exact ⟨hopen, hsub, hu', syncToDatabase_periodEnd hu hu'⟩

/-- The end of a renewal: the period moves on and nothing is closed. -/
theorem renew_frame (ctx : HandlerCtx) (a b : DateTime) :
    Opens st.db (st.renew orgId ctx a b).db ∧
      (st.renew orgId ctx a b).db.subscription =
        (st.db.subscription.map (Subscription.advance a b)).map
          (fun s => { s with status := .active }) := by
  simp only [renew, warmSubCache_db]
  refine ⟨?_, ?_⟩
  · have h := opens_getOrCreateUsageRecord (st.db.advancePeriod a b) orgId a b
    exact h
  · simp

end UsageState
end PandaProbe
