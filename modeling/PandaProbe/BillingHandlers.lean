import PandaProbe.UsageLedger
import PandaProbe.UsageService

/-! # The webhook handlers of the billing service

The handlers of `BillingService`, the periodic usage sync and the hobby reset, each as
one transaction on an organization's state.  What a handler takes from outside is in
its event and its `HandlerCtx`: whether the overage lock was free, whether warming the
subscription cache went through, the clock, the id drawn for a report, and what a
delivery of that report wrote.

A handler that raises has committed nothing; the one exception is the subscription
deletion, which commits its report before it downgrades the organization.
-/
namespace PandaProbe

/-- `_RENEWAL_BILLING_REASON`. -/
def renewalBillingReason : String := "subscription_cycle"

/-- An invoice event.  `subscriptionId` is what `_invoice_subscription_id` reads. -/
structure InvoiceEvent where
  id : String
  subscriptionId : Option String
  billingReason : Option String
  periodStart : Option Int
  periodEnd : Option Int

/-- A `checkout.session.completed` event, with the period of the retrieved Stripe
subscription. -/
structure CheckoutEvent where
  plan : SubscriptionPlan
  customer : Option String
  subscriptionId : String
  periodStart : Int
  periodEnd : Int

/-- A `customer.subscription.updated` event: the status, the plan its price resolves to
if it has a known price, the cancellation time, and the period of its first item. -/
structure SubscriptionEvent where
  id : String
  status : Option String
  plan : Option SubscriptionPlan
  canceledAt : Option Int
  period : Option (Int × Int)

/-- What a handler run takes from outside. -/
structure HandlerCtx where
  lockFree : Bool
  cacheWarmed : Bool
  now : DateTime
  reportId : UUID
  delivery : List DeliveryWrite

/-- `_invoice_period`: the ending renewal period an invoice names. -/
def invoicePeriod (obj : InvoiceEvent) : Except BillingError (DateTime × DateTime) :=
  match obj.periodStart, obj.periodEnd with
  | some start, some stop =>
    if 0 < start ∧ start < stop then
      .ok (DateTime.fromTimestamp start, DateTime.fromTimestamp stop)
    else .error .invalidPeriod
  | _, _ => .error .invalidPeriod

namespace BillingDb

/-- `deliver` on a report: the writes it commits, and `finish` once no category is
left. -/
def deliver (db : BillingDb) (reportId : UUID) (writes : List DeliveryWrite) : BillingDb :=
  let reports := db.reports.map (fun r => if r.id = reportId then writes.foldl BillingReport.write r
    else r)
  let db := { db with reports := reports }
  match reports.find? (fun r => r.id = reportId ∧ r.status = .pending ∧ r.nextCategory = none) with
  | none => db
  | some r =>
    match db.usage r.usageRecordId with
    | none => db
    | some usage =>
      { db.putUsage (finishUsage usage (reports.filter (fun q => q.usageRecordId = r.usageRecordId))
          reportId) with
        reports := reports.map (fun q => if q.id = reportId then q.confirm else q) }

/-- The arguments of a `stage` call in a handler run. -/
def stageArgs (sub : Subscription) (ctx : HandlerCtx) (invoiceId closingInvoiceId : Option String) :
    StageArgs := ⟨sub, invoiceId, closingInvoiceId, false, ctx.reportId, ctx.now⟩

/-- `report_overages_to_stripe`: reserve, commit, deliver. -/
def reportOveragesToStripe (db : BillingDb) (ctx : HandlerCtx) (periodStart : Option DateTime)
    (invoiceId : Option String) : Except BillingError BillingDb :=
  match db.subscription with
  | none => .ok db
  | some sub =>
    match sub.stripeCustomerId with
    | none => .ok db
    | some _ =>
      match db.stage (periodStart.getD sub.currentPeriodStart) (stageArgs sub ctx invoiceId none) with
      | .error e => .error e
      | .ok db => .ok (db.deliver ctx.reportId ctx.delivery)

end BillingDb

namespace UsageState
variable (orgId : UUID) (st : UsageState)

/-- `_warm_sub_cache`, best effort. -/
def warmSubCache (ctx : HandlerCtx) : UsageState :=
  if ctx.cacheWarmed then { st with cache := st.db.subscription } else st

@[simp] theorem warmSubCache_db (ctx : HandlerCtx) : (st.warmSubCache ctx).db = st.db := by
  unfold warmSubCache
  split <;> rfl

/-- The billing part of `create_organization`. -/
def createOrganization (plan : SubscriptionPlan) (now : DateTime) : Except BillingError UsageState :=
  match st.db.subscription with
  | some _ => .error .integrity
  | none =>
    let sub : Subscription :=
      ⟨orgId, plan, .active, none, none, now, now + DateTime.days 30, none⟩
    match st.db.createUsageRecord orgId now (now + DateTime.days 30) with
    | .error e => .error e
    | .ok db => .ok { st with db := db.putSubscription sub }

/-- The subscription row after a completed checkout. -/
def checkoutSubscription (obj : CheckoutEvent) : Subscription :=
  let start := DateTime.fromTimestamp obj.periodStart
  let stop := DateTime.fromTimestamp obj.periodEnd
  match st.db.subscription with
  | some sub =>
    { sub with
      plan := obj.plan
      status := .active
      stripeCustomerId := obj.customer
      stripeSubscriptionId := some obj.subscriptionId
      currentPeriodStart := start
      currentPeriodEnd := stop
      canceledAt := none }
  | none => ⟨orgId, obj.plan, .active, obj.customer, some obj.subscriptionId, start, stop, none⟩

/-- Process `checkout.session.completed`: activate a paid subscription. -/
def handleCheckoutCompleted (obj : CheckoutEvent) (ctx : HandlerCtx) : UsageState :=
  let db := (st.db.putSubscription (st.checkoutSubscription orgId obj)).getOrCreateUsageRecord orgId
    (DateTime.fromTimestamp obj.periodStart) (DateTime.fromTimestamp obj.periodEnd)
  warmSubCache { st with db := db } ctx

/-- `_sync_invoice_period`: sync the ending period; missing or mismatched history needs
reconciliation. -/
def syncInvoicePeriod (obj : InvoiceEvent) : Except BillingError (UsageState × UsageRecord) :=
  match invoicePeriod obj with
  | .error e => .error e
  | .ok (start, stop) =>
    match st.db.getCurrentUsageRecord start with
    | some usage =>
      if usage.periodEnd ≠ stop then .error .periodMismatch
      else if usage.billed then .ok (st, usage)
      else
        let st := st.syncToDatabase orgId (some (start, stop))
        match st.db.getCurrentUsageRecord start with
        | none => .error .historyMissing
        | some usage => .ok (st, usage)
    | none =>
      let st := st.syncToDatabase orgId (some (start, stop))
      match st.db.getCurrentUsageRecord start with
      | none => .error .historyMissing
      | some usage => .ok (st, usage)

/-- Process `invoice.created`: last-chance overage capture. -/
def handleInvoiceCreated (obj : InvoiceEvent) (ctx : HandlerCtx) : Except BillingError UsageState :=
  if obj.billingReason ≠ some renewalBillingReason then .ok st
  else
    match (truthy obj.subscriptionId).bind st.db.getSubscriptionByStripeSubscription with
    | none => .ok st
    | some sub =>
      if !(getPlanConfig sub.plan).payAsYouGo then .ok st
      else if !ctx.lockFree then .error .busy
      else
        match st.syncInvoicePeriod orgId obj with
        | .error e => .error e
        | .ok (st, usage) =>
          if usage.billed then .ok st
          else
            match st.db.reportOveragesToStripe ctx (some usage.periodStart) (some obj.id) with
            | .error e => .error e
            | .ok db => .ok { st with db := db }

/-- The end of `handle_invoice_paid`: the period moves on, the new one has a record,
and the subscription is active. -/
def renew (ctx : HandlerCtx) (newStart newEnd : DateTime) : UsageState :=
  let db := ((st.db.advancePeriod newStart newEnd).getOrCreateUsageRecord orgId newStart
    newEnd).updateSubscription (fun s => { s with status := .active })
  warmSubCache { st with db := db } ctx

/-- Close the invoice's ending period.  `live` is the period of the retrieved Stripe
subscription. -/
def handleInvoicePaid (obj : InvoiceEvent) (live : Int × Int) (ctx : HandlerCtx) :
    Except BillingError UsageState :=
  match (truthy obj.subscriptionId).bind st.db.getSubscriptionByStripeSubscription with
  | none => .ok st
  | some sub =>
    let newStart := DateTime.fromTimestamp live.1
    let newEnd := DateTime.fromTimestamp live.2
    if obj.billingReason = some renewalBillingReason then
      if !ctx.lockFree then .error .busy
      else
        match st.syncInvoicePeriod orgId obj with
        | .error e => .error e
        | .ok (st, usage) =>
          if usage.billed then .ok (st.renew orgId ctx newStart newEnd)
          else
            match st.db.stage usage.periodStart (BillingDb.stageArgs sub ctx none (some obj.id)) with
            | .error e => .error e
            | .ok db =>
              let st := { st with db := db.markBilled usage.periodStart (some obj.id) }
              .ok (st.renew orgId ctx newStart newEnd)
    else .ok (st.renew orgId ctx newStart newEnd)

/-- Process `invoice.payment_failed`: mark the subscription past due. -/
def handleInvoicePaymentFailed (obj : InvoiceEvent) (ctx : HandlerCtx) : UsageState :=
  match (truthy obj.subscriptionId).bind st.db.getSubscriptionByStripeSubscription with
  | none => st
  | some _ =>
    let db := st.db.updateSubscription (fun s => { s with status := .pastDue })
    warmSubCache { st with db := db } ctx

/-- The `status_map` of `handle_subscription_updated`, with its default. -/
def mapStatus (status : Option String) : SubscriptionStatus :=
  match status.getD "active" with
  | "past_due" => .pastDue
  | "canceled" => .canceled
  | "incomplete" => .incomplete
  | _ => .active

/-- The truthy bounds of an event's first item. -/
def eventPeriod (obj : SubscriptionEvent) : Option (DateTime × DateTime) :=
  match obj.period with
  | some (start, stop) =>
    if start ≠ 0 ∧ stop ≠ 0 then some (DateTime.fromTimestamp start, DateTime.fromTimestamp stop)
    else none
  | none => none

/-- Process `customer.subscription.updated`: plan and status changes. -/
def handleSubscriptionUpdated (obj : SubscriptionEvent) (ctx : HandlerCtx) : UsageState :=
  match st.db.getSubscriptionByStripeSubscription obj.id with
  | none => st
  | some _ =>
    let db := match eventPeriod obj with
      | some (start, stop) => st.db.advancePeriod start stop
      | none => st.db
    let db := db.updateSubscription (fun s =>
      { s with
        status := mapStatus obj.status
        plan := obj.plan.getD s.plan
        canceledAt := (obj.canceledAt.filter (· ≠ 0)).map DateTime.fromTimestamp })
    warmSubCache { st with db := db } ctx

/-- The first half of `handle_subscription_deleted`: finalize the overages of a
pay-as-you-go subscription.  The flag says whether a report was committed. -/
def finalizeOverages (sub : Subscription) (ctx : HandlerCtx) :
    Except BillingError (UsageState × Bool) :=
  if (getPlanConfig sub.plan).payAsYouGo ∧ sub.stripeCustomerId.isSome then
    let st := st.syncToDatabase orgId none
    if ctx.lockFree then
      match st.db.reportOveragesToStripe ctx none none with
      | .error e => .error e
      | .ok db => .ok ({ st with db := db }, true)
    else .ok (st, false)
  else .ok (st, false)

/-- The close of the old period, for a pay-as-you-go subscription. -/
def closeOldPeriod (sub : Subscription) : BillingDb :=
  if (getPlanConfig sub.plan).payAsYouGo ∧ sub.stripeCustomerId.isSome then
    match st.db.getCurrentUsageRecord sub.currentPeriodStart with
    | some usage => if usage.billed then st.db else st.db.markBilled sub.currentPeriodStart none
    | none => st.db
  else st.db

/-- The old period stays as it is, or is closed. -/
theorem closeOldPeriod_cases (sub : Subscription) : st.closeOldPeriod sub = st.db ∨
    ((getPlanConfig sub.plan).payAsYouGo ∧ sub.stripeCustomerId.isSome) ∧
      st.closeOldPeriod sub = st.db.markBilled sub.currentPeriodStart none := by
  unfold closeOldPeriod
  split
  next hpaid =>
    split
    · split
      · exact .inl rfl
      · exact .inr ⟨hpaid, rfl⟩
    · exact .inl rfl
  · exact .inl rfl

/-- The subscription row after a downgrade to HOBBY. -/
def downgraded (now : DateTime) (s : Subscription) : Subscription :=
  { s with
    plan := .hobby
    status := .active
    stripeSubscriptionId := none
    canceledAt := some now
    currentPeriodStart := now
    currentPeriodEnd := now + DateTime.days 30 }

/-- Process `customer.subscription.deleted`: finalize overages, then downgrade to HOBBY.
The state is what has been committed, also when the handler raises. -/
def handleSubscriptionDeleted (subscriptionId : String) (ctx : HandlerCtx) :
    UsageState × Option BillingError :=
  match st.db.getSubscriptionByStripeSubscription subscriptionId with
  | none => (st, none)
  | some sub =>
    match st.finalizeOverages orgId sub ctx with
    | .error e => (st, some e)
    | .ok (st₁, reported) =>
      let db := (st₁.closeOldPeriod sub).updateSubscription (downgraded ctx.now)
      match db.createUsageRecord orgId ctx.now (ctx.now + DateTime.days 30) with
      | .error e => (if reported then st₁ else st, some e)
      | .ok db => (warmSubCache { st₁ with db := db } ctx, none)

/-- `_reset_single_hobby_org`: advance the period of an organization and clear its
counters. -/
def resetSingleHobbyOrg : Except BillingError UsageState :=
  match st.db.subscription with
  | none => .ok st
  | some sub =>
    let newStart := sub.currentPeriodEnd
    let newEnd := newStart + DateTime.days 30
    match (st.db.advancePeriod newStart newEnd).createUsageRecord orgId newStart newEnd with
    | .error e => .error e
    | .ok db =>
      .ok ((deleteUsageKey orgId { st with db := db } sub.currentPeriodStart)
        |>.invalidateSubscriptionCache)

/-- The end of the period a reset opens. -/
def resetEnd (sub : Subscription) : DateTime := sub.currentPeriodEnd + DateTime.days 30

/-- The transaction of a reset that has read the row `sub`. -/
def commitReset (orgId : UUID) (st : UsageState) (sub : Subscription) :
    Except BillingError UsageState :=
  match (st.db.advancePeriod sub.currentPeriodEnd (resetEnd sub)).createUsageRecord orgId
      sub.currentPeriodEnd (resetEnd sub) with
  | .error e => .error e
  | .ok db => .ok { st with db := db }

section Reset
variable {orgId st} {st' : UsageState} {sub : Subscription}

theorem commitReset_ok (h : st.commitReset orgId sub = .ok st') : ∃ db,
    (st.db.advancePeriod sub.currentPeriodEnd (resetEnd sub)).createUsageRecord orgId
      sub.currentPeriodEnd (resetEnd sub) = .ok db ∧ st' = { st with db := db } := by
  unfold commitReset at h
  split at h
  · cases h
  next db hdb =>
    cases h
    exact ⟨db, hdb, rfl⟩

/-- A reset is a read, a commit, the deletion of the old counters and of the cached row. -/
theorem resetSingleHobbyOrg_ok (hsub : st.db.subscription = some sub)
    (h : st.resetSingleHobbyOrg orgId = .ok st') : ∃ st₁, st.commitReset orgId sub = .ok st₁ ∧
      st' = (st₁.deleteUsageKey orgId sub.currentPeriodStart).invalidateSubscriptionCache := by
  unfold resetSingleHobbyOrg at h
  rw [hsub] at h
  simp only at h
  split at h
  · cases h
  next db hdb =>
    cases h
    have hcommit : st.commitReset orgId sub = .ok { st with db := db } := by
      simp only [commitReset, resetEnd, hdb]
    exact ⟨_, hcommit, rfl⟩

end Reset

end UsageState
end PandaProbe
