import PandaProbe.DisplayedOverage
import PandaProbe.OverageBooks
import PandaProbe.PeriodKeys

/-! # The billing page

`get_billing` sets the overage of the live counters against the overage already reported.
Each side is read in a place of its own: the counters from the usage hash of the period the
cached subscription is in, the watermarks from the record of the period the stored one is
in.  Both are measured against the allowances of the stored plan, and the difference is shown
as it comes out, where `calculate_unreported_overages` cuts it off at zero.

The runs behind a page are those of `PeriodKeys.apply`, with the tasks that can stop between
their steps taken apart: a cache fill holds the row it has read, a usage sync the counters it
has read, and a report is staged in a commit of its own, under the row its task has read and
from the counters that are stored by then.
-/
namespace PandaProbe
open HighWater

/-- The plans' `monthly_price_cents`. -/
def SubscriptionPlan.monthlyPriceCents : SubscriptionPlan → Int
  | .pro => 2900
  | .startup => 29900
  | .hobby | .enterprise | .development => 0

/-- Current-period usage snapshot returned to the API caller. -/
structure UsageSummary where
  plan : SubscriptionPlan
  status : SubscriptionStatus
  periodStart : DateTime
  periodEnd : DateTime
  used : UsageCategory → Int

/-- Overage cost breakdown for a single usage category. -/
structure CategoryBreakdown where
  used : Int
  included : Option Int
  overageUnits : Int
  overageCost : ℚ

/-- Current-period billing overview with cost projections. -/
structure BillingResponse where
  plan : SubscriptionPlan
  periodStart : DateTime
  periodEnd : DateTime
  basePriceCents : Int
  unitPrice : Decimal
  breakdown : UsageCategory → CategoryBreakdown
  totalOverageCost : ℚ
  reportedOverageCost : ℚ
  pendingOverageCost : ℚ
  estimatedTotalCents : Int

/-- The units above the allowances of a plan, over all categories. -/
def SubscriptionPlan.unitsOver (plan : SubscriptionPlan) (n : UsageCategory → Int) : Int :=
  overage (plan.base .traces) (n .traces) + overage (plan.base .traceEvals) (n .traceEvals) +
    overage (plan.base .sessionEvals) (n .sessionEvals)

namespace UsageState
variable (orgId : UUID) (st : UsageState)

/-- Return a snapshot of the current period's usage. -/
def getCurrentUsage (now : DateTime) : UsageState × UsageSummary :=
  let (st, sub) := st.getSubscriptionCached
  match sub with
  | none => (st, ⟨.hobby, .active, now, now, fun _ => 0⟩)
  | some sub =>
    (st, ⟨sub.plan, sub.status, sub.currentPeriodStart, sub.currentPeriodEnd,
      st.redis.value (usageKey orgId sub.currentPeriodStart)⟩)

/-- The units above the allowances that the period's record says are reported. -/
def reportedUnits (sub : Subscription) : Int :=
  match st.db.getCurrentUsageRecord sub.currentPeriodStart with
  | none => 0
  | some usage => sub.plan.unitsOver usage.reported

/-- Get the current billing period's cost breakdown including overages, for a member of the
organization. -/
def getBilling (now : DateTime) : UsageState × Except String BillingResponse :=
  match st.db.subscription with
  | none => (st, .error "No subscription found for this organization.")
  | some sub =>
    let (st, summary) := st.getCurrentUsage orgId now
    let units := sub.plan.unitsOver summary.used
    let total := overageUnitPrice.times units
    let reported := overageUnitPrice.times (st.reportedUnits sub)
    (st, .ok
      { plan := sub.plan
        periodStart := sub.currentPeriodStart
        periodEnd := sub.currentPeriodEnd
        basePriceCents := sub.plan.monthlyPriceCents
        unitPrice := overageUnitPrice
        breakdown := fun c =>
          let n := overage (sub.plan.base c) (summary.used c)
          { used := summary.used c
            included := getLimitForCategory sub.plan c
            overageUnits := n
            overageCost := overageUnitPrice.times n }
        totalOverageCost := total
        reportedOverageCost := reported
        pendingOverageCost := total - reported
        estimatedTotalCents := sub.plan.monthlyPriceCents + overageUnitPrice.cents units })

end UsageState

/-- What a task has read: the subscription row, and the counters of a period. -/
structure PageTask where
  row : Option Subscription
  counts : Option (DateTime × DateTime × (UsageCategory → Int))

/-- The organization and its tasks. -/
structure PageRun where
  st : UsageState
  task : Nat → PageTask

/-- What can happen next. -/
inductive PageAct
  | org (op : OrgOp)
  | view (now : DateTime)
  | fetchRow (w : Nat)
  | fillCache (w : Nat)
  | readCounters (w : Nat) (period : Option (DateTime × DateTime))
  | commitCounters (w : Nat)
  | stage (w : Nat) (periodStart : Option DateTime) (invoiceId closingInvoiceId : Option String)
      (allowClosed : Bool) (reportId : UUID) (createdAt : DateTime)
  | deliver (reportId : UUID) (writes : List DeliveryWrite)

namespace PageRun
variable (orgId : UUID) (s : PageRun) (w : Nat)

/-- The rows or the hashes change. -/
def put (st : UsageState) : PageRun := { s with st := st }

/-- The task has read something. -/
def goto (t : PageTask) : PageRun := { s with task := Function.update s.task w t }

/-- The task reads the subscription row. -/
def fetchRow : PageRun := s.goto w { s.task w with row := s.st.db.subscription }

/-- The task puts the row it has read into the cache. -/
def fillCache : Option PageRun :=
  (s.task w).row.map fun sub => s.put { s.st with cache := some sub }

/-- The first half of `sync_to_database`: the counters of a chosen period, or of the one the
row it has read is in. -/
def readCounters (period : Option (DateTime × DateTime)) : Option PageRun :=
  match period <|> (s.task w).row.map (fun r => (r.currentPeriodStart, r.currentPeriodEnd)) with
  | none => none
  | some (start, stop) =>
    let key := usageKey orgId start
    if s.st.hashEmpty key then some s
    else some (s.goto w { s.task w with counts := some (start, stop, s.st.redis.value key) })

/-- Its second half: what was read is stored. -/
def commitCounters : Option PageRun :=
  (s.task w).counts.map fun (start, stop, counts) =>
    s.put { s.st with db := s.st.db.upsertUsageCounters orgId start stop counts }

/-- A report is staged under the row the task has read, and committed. -/
def stage (periodStart : Option DateTime) (invoiceId closingInvoiceId : Option String)
    (allowClosed : Bool) (reportId : UUID) (createdAt : DateTime) : Option PageRun :=
  (s.task w).row.map fun sub =>
    match s.st.db.stage (periodStart.getD sub.currentPeriodStart)
      ⟨sub, invoiceId, closingInvoiceId, allowClosed, reportId, createdAt⟩ with
    | .error _ => s
    | .ok db => s.put { s.st with db := db }

/-- One step. -/
def step : PageAct → Option PageRun
  | .org op => some (s.put (PeriodKeys.apply orgId s.st op))
  | .view now => some (s.put (s.st.getBilling orgId now).1)
  | .fetchRow w => some (s.fetchRow w)
  | .fillCache w => s.fillCache w
  | .readCounters w period => s.readCounters orgId w period
  | .commitCounters w => s.commitCounters orgId w
  | .stage w periodStart invoiceId closingInvoiceId allowClosed reportId createdAt =>
    s.stage w periodStart invoiceId closingInvoiceId allowClosed reportId createdAt
  | .deliver reportId writes => some (s.put { s.st with db := s.st.db.deliver reportId writes })

/-- Nothing has happened yet. -/
def initial : PageRun := ⟨PeriodKeys.initial.state, fun _ => ⟨none, none⟩⟩

end PageRun

/-! ## The counters in step with the reports -/

/-- A period and the plan it is measured by. -/
abbrev Terms := DateTime × SubscriptionPlan

/-- The period a subscription is in, and its plan. -/
def Subscription.terms (sub : Subscription) : Terms := (sub.currentPeriodStart, sub.plan)

namespace UsageState
variable (orgId : UUID) (st : UsageState)

/-- The current period and plan. -/
def terms : Option Terms := st.db.subscription.map Subscription.terms

/-- What a report of a period would snapshot after a sync of that period. -/
def due (t : DateTime) (c : UsageCategory) : Int :=
  if st.hashEmpty (usageKey orgId t) then ((st.db.usage t).map (fun u => u.count c)).getD 0
  else st.redis.value (usageKey orgId t) c

/-- A cached subscription is in a period that shares its usage hash with this one. -/
def Sees (t : DateTime) : Prop :=
  ∀ sub, st.cache = some sub → usageKey orgId sub.currentPeriodStart = usageKey orgId t

/-- Nothing above the allowances is reserved in a period. -/
def Quiet (x : Terms) : Prop := ∀ c, st.db.largestSnapshot x.1 c ≤ x.2.base c

/-- What is reserved in a period is within the allowances, or still in its counter. -/
def Held (value : String → UsageCategory → Int) (x : Terms) : Prop :=
  ∀ c, st.db.largestSnapshot x.1 c ≤ max (x.2.base c) (value (usageKey orgId x.1) c)

/-- What a report of a period would snapshot is within the allowances, or in the period's
counter and seen there. -/
def Stageable (n : UsageCategory → Int) (x : Terms) : Prop :=
  (∀ c, n c ≤ max (x.2.base c) (st.redis.value (usageKey orgId x.1) c)) ∧
    (st.Sees orgId x.1 ∨ ∀ c, n c ≤ x.2.base c)

end UsageState

namespace OrgOp
open BillingDb
variable (st : UsageState)

/-- The subscription an invoice is of. -/
def invoiced (obj : InvoiceEvent) : Option Subscription :=
  (truthy obj.subscriptionId).bind st.db.getSubscriptionByStripeSubscription

/-- The periods in which an operation may stage a report. -/
def stages : OrgOp → List DateTime
  | .invoiceCreated obj _ | .invoicePaid obj _ _ =>
    if (invoiced st obj).isSome ∧ obj.billingReason = some renewalBillingReason then
      PeriodKeys.invoiceStart obj
    else []
  | .subscriptionDeleted sid _ =>
    ((st.db.getSubscriptionByStripeSubscription sid).map Subscription.currentPeriodStart).toList
  | _ => []

/-- The period and the plan an operation moves the subscription to. -/
def opens (orgId : UUID) : OrgOp → Option Terms
  | .createOrganization plan now => some (now, plan)
  | .checkoutCompleted obj _ => some (st.checkoutSubscription orgId obj).terms
  | .invoicePaid obj live _ => (invoiced st obj).map fun s =>
    (Subscription.advance (DateTime.fromTimestamp live.1) (DateTime.fromTimestamp live.2) s).terms
  | .subscriptionUpdated obj _ => (st.db.getSubscriptionByStripeSubscription obj.id).map fun s =>
    let s := match UsageState.eventPeriod obj with
      | some (start, stop) => Subscription.advance start stop s
      | none => s
    (s.currentPeriodStart, obj.plan.getD s.plan)
  | .subscriptionDeleted sid ctx => (st.db.getSubscriptionByStripeSubscription sid).map fun s =>
    (UsageState.downgraded ctx.now s).terms
  | .resetHobby => st.db.subscription.map fun s =>
    (Subscription.advance s.currentPeriodEnd (s.currentPeriodEnd + DateTime.days 30) s).terms
  | _ => none

/-- An operation that goes through leaves the new row in the cache, or none. -/
def warms : OrgOp → Bool
  | .checkoutCompleted _ ctx | .invoicePaid _ _ ctx | .subscriptionUpdated _ ctx
  | .subscriptionDeleted _ ctx => ctx.cacheWarmed
  | .resetHobby => true
  | _ => false

/-- The periods and plans the subscription may be in once an operation is through.  A deletion
whose new period is not new fails after its first commit. -/
def lands (orgId : UUID) (op : OrgOp) : List Terms :=
  match op with
  | .createOrganization .. | .checkoutCompleted .. | .invoicePaid .. | .subscriptionUpdated ..
  | .resetHobby => (op.opens st orgId).toList
  | .subscriptionDeleted _ ctx =>
    if (st.db.usage ctx.now).isSome ∨ st.terms.map Prod.fst = some ctx.now then
      st.terms.toList ++ (op.opens st orgId).toList
    else (op.opens st orgId).toList
  | _ => st.terms.toList

/-- Where an operation moves the subscription to another period or plan, what is reserved there
is within the new allowances or held by its counter, and seen; and it stages a period that is
current afterwards only from what its counter holds. -/
def Fits (orgId : UUID) (op : OrgOp) : Prop :=
  ∀ x ∈ op.lands st orgId,
    (st.terms ≠ some x → st.Held orgId st.redis.value x ∧
      (op.warms = true ∨ st.Sees orgId x.1 ∨ st.Quiet x)) ∧
    (x.1 ∈ op.stages st → st.Stageable orgId (st.due orgId x.1) x)

/-- **The condition on an operation.**  A rollback counted under the current period, and no
replay, leaves in the counter what is reserved there, or that is within the allowance; the
current period's hash is deleted only while nothing above the allowances is reserved; after a
reset, what is reserved in the next period is within the allowances or held by its counter;
and every other operation fits. -/
def InTurn (orgId : UUID) : OrgOp → Prop
  | .rollback c n id => ∀ x, st.terms = some x → ∀ sub, st.visible = some sub →
    usageKey orgId sub.currentPeriodStart = usageKey orgId x.1 →
    st.redis.dedup (rollbackRetryKey (usageKey orgId x.1) id) = none →
      st.db.largestSnapshot x.1 c ≤ max (x.2.base c) (st.redis.value (usageKey orgId x.1) c - n)
  | .expireUsageKey t => ∀ x, st.terms = some x → usageKey orgId t = usageKey orgId x.1 → st.Quiet x
  | .resetHobby => ∀ sub, st.db.subscription = some sub → ∀ x ∈ OrgOp.resetHobby.opens st orgId,
    st.Held orgId (st.deleteUsageKey orgId sub.currentPeriodStart).redis.value x
  | op => op.Fits st orgId

end OrgOp

/-- **The condition on a step.**  An operation is in turn; a cache fill carries a row of the
current period's day, or nothing above the allowances is reserved; and a report of the current
period is staged from stored counters that the live one still holds. -/
def PageRun.InTurn (orgId : UUID) (s : PageRun) : PageAct → Prop
  | .org op => op.InTurn s.st orgId
  | .fillCache w => ∀ x, s.st.terms = some x → ∀ sub, (s.task w).row = some sub →
    usageKey orgId sub.currentPeriodStart = usageKey orgId x.1 ∨ s.st.Quiet x
  | .stage w periodStart _ _ _ _ _ => ∀ x, s.st.terms = some x → ∀ sub, (s.task w).row = some sub →
    periodStart.getD sub.currentPeriodStart = x.1 → ∀ u, s.st.db.usage x.1 = some u →
      s.st.Stageable orgId u.count x
  | _ => True

end PandaProbe
