import PandaProbe.Registry

/-! # Billing rows and their repository

The entities of `core/billing/entities.py` and the operations of
`BillingRepository`, on the rows of one organization.

`usage_records` is unique on `(org_id, period_start)`, so an organization's usage
rows are a table keyed by period start: `BillingDb.usage`, with the key repeated
in the row as the source has it (`usage_keyed`).  A billing report refers to its
usage row by that same key.
-/
namespace PandaProbe

/-- An organization's subscription to a PandaProbe plan. -/
structure Subscription where
  orgId : UUID
  plan : SubscriptionPlan
  status : SubscriptionStatus
  stripeCustomerId : Option String
  stripeSubscriptionId : Option String
  currentPeriodStart : DateTime
  currentPeriodEnd : DateTime
  canceledAt : Option DateTime
  deriving DecidableEq, Repr

/-- Aggregated usage counters for a single billing period.  `count c` is
`trace_count`, `trace_eval_count` or `session_eval_count`, and `reported c` the
`reported_*` high-water mark of the same counter. -/
structure UsageRecord where
  orgId : UUID
  periodStart : DateTime
  periodEnd : DateTime
  count : UsageCategory → Int
  reported : UsageCategory → Int
  billed : Bool
  stripeInvoiceId : Option String
  deriving DecidableEq

/-- A fresh row: every counter and flag at its column default. -/
def UsageRecord.fresh (orgId : UUID) (periodStart periodEnd : DateTime) : UsageRecord :=
  ⟨orgId, periodStart, periodEnd, fun _ => 0, fun _ => 0, false, none⟩

/-- The `metadata` of a Stripe invoice item. -/
structure ChargeMetadata where
  ppReportId : UUID
  category : UsageCategory
  orgId : UUID
  fromCount : Int
  toCount : Int
  deriving DecidableEq, Repr

/-- The frozen parameters of one `stripe.InvoiceItem.create` call. -/
structure ChargeRequest where
  customer : String
  currency : String
  amount : Int
  description : String
  periodStart : Int
  periodEnd : Int
  metadata : ChargeMetadata
  idempotencyKey : String
  subscription : Option String
  invoice : Option String
  deriving DecidableEq, Repr

/-- The pricing a report freezes: unit price and included allowance. -/
structure Pricing where
  unitPrice : Decimal
  base : UsageCategory → Int
  deriving DecidableEq

/-- Delivery status of a billing report. -/
inductive ReportStatus
  | pending | reported | needsReview
  deriving DecidableEq, Repr

/-- An immutable usage snapshot plus recoverable Stripe delivery state. -/
structure BillingReport where
  id : UUID
  usageRecordId : DateTime
  stripeCustomerId : String
  stripeSubscriptionId : Option String
  closingInvoiceId : Option String
  snapshot : UsageCategory → Int
  pricing : Pricing
  requests : UsageCategory → Option ChargeRequest
  attemptedAt : UsageCategory → Option DateTime
  stripeItemIds : UsageCategory → Option String
  status : ReportStatus
  lastError : Option String
  createdAt : DateTime
  deriving DecidableEq

/-- What the billing code raises. -/
inductive BillingError
  | noCustomer | busy | invalidPeriod | periodMismatch | historyMissing | integrity
  deriving DecidableEq, Repr

/-- The message of the raised `PandaProbeError`; a violated unique constraint
comes from the database and has none. -/
def BillingError.detail : BillingError → Option String
  | .noCustomer => some "Cannot reserve billing usage without its Stripe customer."
  | .busy => some "Overage reporting is busy; retry the invoice webhook."
  | .invalidPeriod =>
      some "Renewal invoice has no valid billing period; reconciliation required."
  | .periodMismatch =>
      some "Invoice period does not match usage history; reconciliation required."
  | .historyMissing => some "Invoice usage history is missing; reconciliation required."
  | .integrity => none

/-- Python truthiness of an optional string: the empty string counts as absent. -/
def truthy (s : Option String) : Option String := s.filter (fun x => x ≠ "")

/-- The billing rows of one organization. -/
structure BillingDb where
  subscription : Option Subscription
  usage : DateTime → Option UsageRecord
  reports : List BillingReport
  usage_keyed : ∀ t u, usage t = some u → u.periodStart = t

namespace BillingDb

/-- No row at all. -/
def empty : BillingDb := ⟨none, fun _ => none, [], fun _ _ h => by cases h⟩

/-- Write one usage row under its own key.  Every other operation that touches
`usage_records` goes through this one. -/
def putUsage (db : BillingDb) (u : UsageRecord) : BillingDb where
  subscription := db.subscription
  usage := Function.update db.usage u.periodStart (some u)
  reports := db.reports
  usage_keyed := by
    intro t v h
    by_cases ht : t = u.periodStart
    · subst ht
      rw [Function.update_self] at h
      exact Option.some.inj h ▸ rfl
    · rw [Function.update_of_ne ht] at h
      exact db.usage_keyed t v h

variable (db : BillingDb)

@[simp] theorem putUsage_subscription (u : UsageRecord) :
    (db.putUsage u).subscription = db.subscription := rfl

@[simp] theorem putUsage_reports (u : UsageRecord) : (db.putUsage u).reports = db.reports := rfl

@[simp] theorem putUsage_usage (u : UsageRecord) :
    (db.putUsage u).usage = Function.update db.usage u.periodStart (some u) := rfl

/-- Store a staged report. -/
def addReport (r : BillingReport) : BillingDb := { db with reports := db.reports ++ [r] }

@[simp] theorem addReport_subscription (r : BillingReport) :
    (db.addReport r).subscription = db.subscription := rfl

@[simp] theorem addReport_usage (r : BillingReport) : (db.addReport r).usage = db.usage := rfl

@[simp] theorem addReport_reports (r : BillingReport) :
    (db.addReport r).reports = db.reports ++ [r] := rfl

/-! ## Subscriptions -/

/-- Write the organization's subscription row. -/
def putSubscription (s : Subscription) : BillingDb := { db with subscription := some s }

@[simp] theorem putSubscription_subscription (s : Subscription) :
    (db.putSubscription s).subscription = some s := rfl

@[simp] theorem putSubscription_usage (s : Subscription) :
    (db.putSubscription s).usage = db.usage := rfl

@[simp] theorem putSubscription_reports (s : Subscription) :
    (db.putSubscription s).reports = db.reports := rfl

/-- Look up the subscription by Stripe subscription id, among this
organization's rows. -/
def getSubscriptionByStripeSubscription (sid : String) : Option Subscription :=
  db.subscription.filter (fun s => s.stripeSubscriptionId = some sid)

theorem getSubscriptionByStripeSubscription_eq_some {sid : String} {s : Subscription} :
    db.getSubscriptionByStripeSubscription sid = some s ↔
      db.subscription = some s ∧ s.stripeSubscriptionId = some sid := by
  simp [getSubscriptionByStripeSubscription, Option.filter_eq_some_iff]

/-- Update subscription fields, if the organization has a row. -/
def updateSubscription (f : Subscription → Subscription) : BillingDb :=
  { db with subscription := db.subscription.map f }

@[simp] theorem updateSubscription_subscription (f : Subscription → Subscription) :
    (db.updateSubscription f).subscription = db.subscription.map f := rfl

@[simp] theorem updateSubscription_usage (f : Subscription → Subscription) :
    (db.updateSubscription f).usage = db.usage := rfl

@[simp] theorem updateSubscription_reports (f : Subscription → Subscription) :
    (db.updateSubscription f).reports = db.reports := rfl

/-- The guarded `UPDATE` of `advance_period` on one row: both bounds move, or neither. -/
def Subscription.advance (newStart newEnd : DateTime) (s : Subscription) : Subscription :=
  if s.currentPeriodStart ≤ newStart ∧ s.currentPeriodEnd ≤ newEnd then
    { s with currentPeriodStart := newStart, currentPeriodEnd := newEnd }
  else s

/-- Move forward only: delayed webhooks must not rewind a subscription. -/
def advancePeriod (newStart newEnd : DateTime) : BillingDb :=
  db.updateSubscription (Subscription.advance newStart newEnd)

@[simp] theorem advancePeriod_subscription (a b : DateTime) :
    (db.advancePeriod a b).subscription = db.subscription.map (Subscription.advance a b) := rfl

@[simp] theorem advancePeriod_usage (a b : DateTime) : (db.advancePeriod a b).usage = db.usage :=
  rfl

@[simp] theorem advancePeriod_reports (a b : DateTime) :
    (db.advancePeriod a b).reports = db.reports := rfl

/-! ## Usage records -/

/-- Fetch the usage record of the period starting at `start`. -/
def getCurrentUsageRecord (start : DateTime) : Option UsageRecord := db.usage start

/-- Create a fresh usage record; the unique constraint rejects a second one. -/
def createUsageRecord (orgId : UUID) (start stop : DateTime) : Except BillingError BillingDb :=
  match db.usage start with
  | some _ => .error .integrity
  | none => .ok (db.putUsage (UsageRecord.fresh orgId start stop))

/-- Get the current usage record or create one if it doesn't exist. -/
def getOrCreateUsageRecord (orgId : UUID) (start stop : DateTime) : BillingDb :=
  match db.usage start with
  | some _ => db
  | none => db.putUsage (UsageRecord.fresh orgId start stop)

/-- Set usage counters from a Redis snapshot (absolute values), creating the row
if there is none.  Nothing else of an existing row changes. -/
def upsertUsageCounters (orgId : UUID) (start stop : DateTime) (counts : UsageCategory → Int) :
    BillingDb :=
  db.putUsage { (db.usage start).getD (UsageRecord.fresh orgId start stop) with count := counts }

/-- Mark a usage record as billed with the Stripe invoice id. -/
def markBilled (start : DateTime) (invoiceId : Option String) : BillingDb :=
  match db.usage start with
  | none => db
  | some u => db.putUsage { u with billed := true, stripeInvoiceId := invoiceId }

/-- A record is created only where there is none. -/
theorem createUsageRecord_ok {db db' : BillingDb} {o : UUID} {a b : DateTime}
    (h : db.createUsageRecord o a b = .ok db') :
    db.usage a = none ∧ db' = db.putUsage (UsageRecord.fresh o a b) := by
  unfold createUsageRecord at h
  split at h
  · cases h
  next hnone =>
    cases h
    exact ⟨hnone, rfl⟩

@[simp] theorem getOrCreateUsageRecord_subscription (o : UUID) (a b : DateTime) :
    (db.getOrCreateUsageRecord o a b).subscription = db.subscription := by
  unfold getOrCreateUsageRecord; split <;> rfl

@[simp] theorem getOrCreateUsageRecord_reports (o : UUID) (a b : DateTime) :
    (db.getOrCreateUsageRecord o a b).reports = db.reports := by
  unfold getOrCreateUsageRecord; split <;> rfl

/-- What the table holds after `get_or_create_usage_record`. -/
theorem getOrCreateUsageRecord_usage (o : UUID) (a b t : DateTime) :
    (db.getOrCreateUsageRecord o a b).usage t =
      if t = a then some ((db.usage a).getD (UsageRecord.fresh o a b)) else db.usage t := by
  unfold getOrCreateUsageRecord
  split
  · rename_i u hu
    by_cases ht : t = a
    · rw [ht, hu]; simp
    · simp [ht]
  · rename_i hu
    by_cases ht : t = a
    · simp [ht, hu, UsageRecord.fresh]
    · simp [ht, UsageRecord.fresh]

@[simp] theorem upsertUsageCounters_subscription (o : UUID) (a b : DateTime)
    (n : UsageCategory → Int) :
    (db.upsertUsageCounters o a b n).subscription = db.subscription := rfl

@[simp] theorem upsertUsageCounters_reports (o : UUID) (a b : DateTime)
    (n : UsageCategory → Int) : (db.upsertUsageCounters o a b n).reports = db.reports := rfl

/-- What the table holds after `upsert_usage_counters`. -/
theorem upsertUsageCounters_usage (o : UUID) (a b t : DateTime) (n : UsageCategory → Int) :
    (db.upsertUsageCounters o a b n).usage t =
      if t = a then some { (db.usage a).getD (UsageRecord.fresh o a b) with count := n }
      else db.usage t := by
  have hkey : ((db.usage a).getD (UsageRecord.fresh o a b)).periodStart = a := by
    cases hu : db.usage a with
    | none => rfl
    | some u => exact db.usage_keyed a u hu
  by_cases ht : t = a
  · simp [upsertUsageCounters, ht, hkey]
  · simp [upsertUsageCounters, ht, hkey]

@[simp] theorem markBilled_subscription (a : DateTime) (i : Option String) :
    (db.markBilled a i).subscription = db.subscription := by
  unfold markBilled; split <;> rfl

@[simp] theorem markBilled_reports (a : DateTime) (i : Option String) :
    (db.markBilled a i).reports = db.reports := by
  unfold markBilled; split <;> rfl

/-- What the table holds after `mark_billed`. -/
theorem markBilled_usage (a t : DateTime) (i : Option String) :
    (db.markBilled a i).usage t =
      if t = a then (db.usage a).map (fun u => { u with billed := true, stripeInvoiceId := i })
      else db.usage t := by
  unfold markBilled
  split
  · rename_i hu
    by_cases ht : t = a
    · simp [ht, hu]
    · simp [ht]
  · rename_i u hu
    have hkey := db.usage_keyed a u hu
    by_cases ht : t = a
    · simp [ht, hu, hkey]
    · simp [ht, hkey]

end BillingDb
end PandaProbe
