import PandaProbe.BillingEntities
import PandaProbe.HighWater

/-! # Reserving overage and recording its delivery

`BillingReportingService.stage` and the writes `deliver` makes to a report row:
choosing a destination, carrying an item over to another invoice, recording the
Stripe item, sending the report to review, and `BillingReportRepository.finish`.

`stage` reads one usage row under its `FOR UPDATE` lock together with the
reports already staged for it, so it is a function of these two (`stageOn`); the
lookup of the row is `BillingDb.stage`.
-/
namespace PandaProbe
open HighWater

/-- The label `_COUNTERS` gives a category's charge. -/
def UsageCategory.label : UsageCategory → String
  | .traces => "Trace overage"
  | .traceEvals => "Trace eval overage"
  | .sessionEvals => "Session eval overage"

/-- The units of `(reserved, snapshot]` that lie above the included allowance. -/
def overageUnits (base reserved snapshot : Int) : Int :=
  max 0 (snapshot - base) - max 0 (reserved - base)

/-- `list_for_usage`: reservations ordered by creation time, then id. -/
def byCreation (reports : List BillingReport) : List BillingReport :=
  reports.insertionSort (fun a b =>
    a.createdAt < b.createdAt ∨ (a.createdAt = b.createdAt ∧ a.id ≤ b.id))

theorem byCreation_perm (reports : List BillingReport) : (byCreation reports).Perm reports :=
  List.perm_insertionSort _ _

@[simp] theorem mem_byCreation {reports : List BillingReport} {r : BillingReport} :
    r ∈ byCreation reports ↔ r ∈ reports := (byCreation_perm reports).mem_iff

@[simp] theorem byCreation_nil : byCreation [] = [] := rfl

/-- The arguments of one `stage` call, with the `uuid4()` it draws for a new
report and the clock reading of the row's `created_at`. -/
structure StageArgs where
  sub : Subscription
  invoiceId : Option String
  closingInvoiceId : Option String
  allowClosed : Bool
  reportId : UUID
  createdAt : DateTime

/-- What a `stage` call returns: nothing, the report that already closes the
period, or a report it has just stored. -/
inductive StageOutcome
  | nothing
  | existing (r : BillingReport)
  | created (r : BillingReport)

/-- What counts as already reserved: the confirmed watermark and every earlier
snapshot, delivered or not. -/
def reservedCount (usage : UsageRecord) (previous : List BillingReport) (c : UsageCategory) :
    Int :=
  mark (usage.reported c) (previous.map (fun r => r.snapshot c))

/-- The snapshot a new report takes of a counter; it never regresses. -/
def snapshotCount (usage : UsageRecord) (previous : List BillingReport) (c : UsageCategory) :
    Int :=
  max (reservedCount usage previous c) (usage.count c)

/-- The pricing of a new report: that of the first report, else the plan's. -/
def stagePricing (sub : Subscription) (previous : List BillingReport) : Pricing :=
  match previous.head? with
  | some r => r.pricing
  | none => ⟨overageUnitPrice, sub.plan.base⟩

/-- The customer a new report charges. -/
def stageCustomer (sub : Subscription) (previous : List BillingReport) : Option String :=
  match previous.head? with
  | some r => some r.stripeCustomerId
  | none => sub.stripeCustomerId

/-- The Stripe subscription a new report charges under. -/
def stageSubscription (sub : Subscription) (previous : List BillingReport) : Option String :=
  match previous.head? with
  | some r => r.stripeSubscriptionId
  | none => sub.stripeSubscriptionId

/-- `f"pp:report:{report_id}:{category}"`. -/
def idempotencyKey (reportId : UUID) (c : UsageCategory) : String :=
  "pp:report:" ++ reportId ++ ":" ++ c.value

/-- The description of a charge. -/
def chargeDescription (usage : UsageRecord) (pricing : Pricing) (c : UsageCategory)
    (units : Int) : String :=
  c.label ++ " (" ++ toString units ++ " units @ $" ++ pricing.unitPrice.str ++ "/unit); " ++
    DateTime.isoDate usage.periodStart ++ " to " ++ DateTime.isoDate usage.periodEnd

/-- One category's request, if the counter has unreserved units above the allowance. -/
def stageRequest (usage : UsageRecord) (previous : List BillingReport) (a : StageArgs)
    (customer : String) (c : UsageCategory) : Option ChargeRequest :=
  let pricing := stagePricing a.sub previous
  let reserved := reservedCount usage previous c
  let snapshot := snapshotCount usage previous c
  let units := overageUnits (pricing.base c) reserved snapshot
  if units ≤ 0 then none
  else some
    { customer := customer
      currency := "usd"
      amount := pricing.unitPrice.cents units
      description := chargeDescription usage pricing c units
      periodStart := DateTime.timestamp usage.periodStart
      periodEnd := DateTime.timestamp usage.periodEnd
      metadata := ⟨a.reportId, c, a.sub.orgId, reserved, snapshot⟩
      idempotencyKey := idempotencyKey a.reportId c
      subscription := truthy (stageSubscription a.sub previous)
      invoice := truthy a.invoiceId }

/-- The report row `stage` stores. -/
def stageReport (usage : UsageRecord) (previous : List BillingReport) (a : StageArgs)
    (customer : String) : BillingReport :=
  let requests := stageRequest usage previous a customer
  { id := a.reportId
    usageRecordId := usage.periodStart
    stripeCustomerId := customer
    stripeSubscriptionId := stageSubscription a.sub previous
    closingInvoiceId := a.closingInvoiceId
    snapshot := snapshotCount usage previous
    pricing := stagePricing a.sub previous
    requests := requests
    attemptedAt := fun _ => none
    stripeItemIds := fun _ => none
    status := if UsageCategory.all.any (fun c => (requests c).isSome) then .pending else .reported
    lastError := none
    createdAt := a.createdAt }

/-- Reserve only unaccounted usage of a locked row. -/
def stageOn (usage : UsageRecord) (reports : List BillingReport) (a : StageArgs) :
    Except BillingError StageOutcome :=
  if usage.billed && !a.allowClosed then .ok .nothing
  else
    let previous := byCreation reports
    let closing := truthy a.closingInvoiceId
    match closing.bind (fun i => previous.find? (fun r => r.closingInvoiceId = some i)) with
    | some r => .ok (.existing r)
    | none =>
      if !(getPlanConfig a.sub.plan).payAsYouGo && previous.isEmpty then .ok .nothing
      else
        match truthy (stageCustomer a.sub previous) with
        | none => .error .noCustomer
        | some customer =>
          let r := stageReport usage previous a customer
          -- An empty closure marker enrolls the period for late-counter checks.
          if r.status ≠ .pending ∧ closing = none then .ok .nothing
          else .ok (.created r)

/-- **Everything a `stage` call can do.**  It leaves the reports alone, or stores
exactly the report `stageReport` builds; it stores one only when some request is
due or a closing invoice is named. -/
theorem stageOn_created {usage : UsageRecord} {reports : List BillingReport} {a : StageArgs}
    {r : BillingReport} (h : stageOn usage reports a = .ok (.created r)) :
    ∃ customer, r = stageReport usage (byCreation reports) a customer ∧
      (r.status = .pending ∨ truthy a.closingInvoiceId ≠ none) := by
  unfold stageOn at h
  split at h
  · cases h
  · simp only at h
    split at h
    · cases h
    · split at h
      · cases h
      · split at h
        · cases h
        · rename_i customer _
          split at h
          · cases h
          · rename_i hdue
            cases h
            refine ⟨customer, rfl, ?_⟩
            rw [not_and_or, not_not] at hdue
            exact hdue

/-- What a `stage` call has checked when it stores a report: its customer is there, and the
first report of a record is one of a pay-as-you-go plan. -/
theorem stageOn_created_checks {usage : UsageRecord} {reports : List BillingReport}
    {a : StageArgs} {r : BillingReport} (h : stageOn usage reports a = .ok (.created r)) :
    truthy (stageCustomer a.sub (byCreation reports)) = some r.stripeCustomerId ∧
      ((byCreation reports).isEmpty = true → (getPlanConfig a.sub.plan).payAsYouGo = true) := by
  unfold stageOn at h
  split at h
  · cases h
  · simp only at h
    split at h
    · cases h
    · split at h
      · cases h
      next hplan =>
        split at h
        · cases h
        next customer hcustomer =>
          split at h
          · cases h
          · cases h
            refine ⟨hcustomer, fun he => ?_⟩
            simpa [he] using hplan

/-- `stage` on an organization's rows: find and lock the usage row, reserve, and
store what was created.  The caller commits. -/
def BillingDb.stage (db : BillingDb) (periodStart : DateTime) (a : StageArgs) :
    Except BillingError BillingDb :=
  match db.usage periodStart with
  | none => .ok db
  | some usage =>
    match stageOn usage (db.reports.filter (fun r => r.usageRecordId = periodStart)) a with
    | .error e => .error e
    | .ok (.created r) => .ok (db.addReport r)
    | .ok _ => .ok db

/-- What `stage` does to the rows: nothing, or it stores what `stageOn` creates. -/
theorem BillingDb.stage_stored {db db' : BillingDb} {t : DateTime} {a : StageArgs}
    (h : db.stage t a = .ok db') :
    db' = db ∨ ∃ u r, db.usage t = some u ∧ db' = db.addReport r ∧
      stageOn u (db.reports.filter (fun r => r.usageRecordId = t)) a = .ok (.created r) := by
  unfold BillingDb.stage at h
  split at h
  · cases h; exact Or.inl rfl
  next u hu =>
    split at h
    · cases h
    next r hr =>
      cases h
      exact Or.inr ⟨u, r, hu, rfl, hr⟩
    · cases h; exact Or.inl rfl

/-- The report it stores is the one `stageReport` builds. -/
theorem BillingDb.stage_cases {db db' : BillingDb} {t : DateTime} {a : StageArgs}
    (h : db.stage t a = .ok db') :
    db' = db ∨ ∃ u customer, db.usage t = some u ∧ db' = db.addReport
      (stageReport u (byCreation (db.reports.filter (fun r => r.usageRecordId = t))) a customer) := by
  rcases BillingDb.stage_stored h with rfl | ⟨u, r, hu, rfl, hr⟩
  · exact Or.inl rfl
  · obtain ⟨customer, rfl, -⟩ := stageOn_created hr
    exact Or.inr ⟨u, customer, hu, rfl⟩

/-- A report that is not pending has no request. -/
theorem stageRequest_none_of_status {usage : UsageRecord} {previous : List BillingReport}
    {a : StageArgs} {customer : String}
    (h : (stageReport usage previous a customer).status ≠ .pending) (c : UsageCategory) :
    stageRequest usage previous a customer c = none := by
  by_contra hne
  refine h (if_pos ?_)
  refine List.any_eq_true.mpr ⟨c, UsageCategory.mem_all c, ?_⟩
  exact Option.isSome_iff_ne_none.mpr hne

/-! ## The writes of `deliver` to a report row -/

/-- `params.pop("invoice")`: bill on the subscription's next invoice instead. -/
def ChargeRequest.dropInvoice (q : ChargeRequest) : ChargeRequest := { q with invoice := none }

/-- A definitively rejected draft item, retargeted under a key of its own. -/
def ChargeRequest.carryover (q : ChargeRequest) : ChargeRequest :=
  { q.dropInvoice with idempotencyKey := q.idempotencyKey ++ ":carryover" }

namespace BillingReport
variable (r : BillingReport)

/-- The first category whose request has no Stripe item yet. -/
def nextCategory : Option UsageCategory :=
  UsageCategory.all.find? (fun c => (r.requests c).isSome && (r.stripeItemIds c).isNone)

/-- Freeze a request with its chosen destination and record the intent to send it. -/
def attempt (c : UsageCategory) (params : ChargeRequest) (now : DateTime) : BillingReport :=
  { r with
    requests := Function.update r.requests c (some params)
    attemptedAt := Function.update r.attemptedAt c (some now) }

/-- Replace a rejected request by its carryover, unattempted. -/
def carryOver (c : UsageCategory) (params : ChargeRequest) : BillingReport :=
  { r with
    requests := Function.update r.requests c (some params.carryover)
    attemptedAt := Function.update r.attemptedAt c none }

/-- Record the Stripe item that satisfies a request. -/
def recordItem (c : UsageCategory) (item : String) : BillingReport :=
  { r with stripeItemIds := Function.update r.stripeItemIds c (some item) }

/-- `_review`. -/
def review (reason : String) : BillingReport :=
  { r with status := .needsReview, lastError := some reason }

/-- The status write of `finish`. -/
def confirm : BillingReport := { r with status := .reported, lastError := none }

end BillingReport

/-- The from-counts of a category's requests that have no Stripe item. -/
def unresolvedCounts (reports : List BillingReport) (c : UsageCategory) : List Int :=
  reports.filterMap (fun r =>
    match r.requests c, r.stripeItemIds c with
    | some q, none => some q.metadata.fromCount
    | _, _ => none)

/-- The snapshots of a category that count as confirmed once report `id` is. -/
def confirmedCounts (reports : List BillingReport) (id : UUID) (c : UsageCategory) : List Int :=
  (reports.filter (fun r => r.status = .reported ∨ r.id = id)).map (fun r => r.snapshot c)

/-- The watermark write of `finish`: up to the confirmed snapshots, but never past
an earlier unresolved charge and never back. -/
def finishUsage (usage : UsageRecord) (reports : List BillingReport) (id : UUID) : UsageRecord :=
  { usage with
    reported := fun c =>
      let confirmed := mark (usage.reported c) (confirmedCounts reports id c)
      max (usage.reported c) ((unresolvedCounts reports c).foldl min confirmed) }

theorem foldl_min_le (m : Int) (l : List Int) : l.foldl min m ≤ m := by
  induction l generalizing m with
  | nil => exact le_refl m
  | cons x l ih => exact le_trans (ih (min m x)) (min_le_left m x)

/-- `finish` never moves a watermark back. -/
theorem le_finishUsage_reported (usage : UsageRecord) (reports : List BillingReport) (id : UUID)
    (c : UsageCategory) : usage.reported c ≤ (finishUsage usage reports id).reported c :=
  le_max_left _ _

/-- `finish` moves a watermark no further than the snapshots staged so far. -/
theorem finishUsage_reported_le (usage : UsageRecord) (reports : List BillingReport) (id : UUID)
    (c : UsageCategory) :
    (finishUsage usage reports id).reported c ≤
      mark (usage.reported c) (reports.map (fun r => r.snapshot c)) := by
  refine max_le (le_mark _ _) (le_trans (foldl_min_le _ _) (mark_le (le_mark _ _) ?_))
  intro x hx
  obtain ⟨r, hr, rfl⟩ := List.mem_map.mp hx
  exact le_mark_of_mem (List.mem_map.mpr ⟨r, (List.mem_filter.mp hr).1, rfl⟩)

end PandaProbe
