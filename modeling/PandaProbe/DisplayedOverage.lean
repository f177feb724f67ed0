import PandaProbe.BillingDesk

/-! # The displayed and the reserved overage

`calculate_unreported_overages` shows what is not reported yet: it measures the counters
against the watermark that `finish` keeps, with the allowances of the current plan.  `stage`
reserves what is not reserved yet: it measures them against the watermark and every snapshot
taken so far, with the allowances its first report has frozen.  They agree where all reports
of the record are reported: the watermark is then level with the snapshots.
-/
namespace PandaProbe
open HighWater BillingReport

/-- `price * units`. -/
def Decimal.times (d : Decimal) (units : Int) : ℚ := d.coeff * units / 10 ^ d.scale

/-- Breakdown of overage charges for a billing period. -/
structure OverageDetail where
  overage : UsageCategory → Int
  cost : UsageCategory → ℚ
  totalCost : ℚ
  snapshot : UsageCategory → Int

/-- `OverageDetail()`. -/
def OverageDetail.zero : OverageDetail := ⟨fun _ => 0, fun _ => 0, 0, fun _ => 0⟩

/-- Calculate new overage charges not yet reported to Stripe. -/
def BillingDb.calculateUnreportedOverages (db : BillingDb) (periodStart : Option DateTime) :
    OverageDetail :=
  match db.subscription with
  | none => .zero
  | some sub =>
    if !(getPlanConfig sub.plan).payAsYouGo then .zero
    else
      match db.getCurrentUsageRecord (periodStart.getD sub.currentPeriodStart) with
      | none => .zero
      | some usage =>
        if usage.billed then .zero
        else
          let base := sub.plan.base
          let units := fun c => max 0 (overage (base c) (usage.count c) -
            overage (base c) (usage.reported c))
          { overage := units
            cost := fun c => overageUnitPrice.times (units c)
            totalCost := overageUnitPrice.times
              (units .traces + units .traceEvals + units .sessionEvals)
            snapshot := usage.count }

/-- The units a report asks to be charged in a category. -/
def BillingReport.units (r : BillingReport) (c : UsageCategory) : Int :=
  match r.requests c with
  | none => 0
  | some q => overageUnits (r.pricing.base c) q.metadata.fromCount q.metadata.toCount

/-- The units a `stage` call requests. -/
def StageOutcome.units : StageOutcome → UsageCategory → Int
  | .created r, c => r.units c
  | _, _ => 0

namespace ReportDesk
variable {s : ReportDesk} {t : DateTime} {u : UsageRecord}

/-! ## What `stage` would request -/

section Units
variable {previous reports : List BillingReport} {a : StageArgs} {c : UsageCategory}

/-- The units of a staged report. -/
theorem stageReport_units (u : UsageRecord) (previous : List BillingReport) (a : StageArgs)
    (customer : String) (c : UsageCategory) :
    (stageReport u previous a customer).units c =
      overageUnits ((stagePricing a.sub previous).base c) (reservedCount u previous c)
        (snapshotCount u previous c) := by
  have hmono := overage_mono ((stagePricing a.sub previous).base c)
    (le_max_left (reservedCount u previous c) (u.count c))
  unfold BillingReport.units
  split
  next hnone =>
    have hnone : stageRequest u previous a customer c = none := hnone
    unfold stageRequest at hnone
    simp only at hnone
    split at hnone
    next hunits =>
      refine le_antisymm ?_ hunits
      rw [overageUnits_eq]
      exact sub_nonneg.mpr hmono
    · cases hnone
  next q hq =>
    have hq : stageRequest u previous a customer c = some q := hq
    unfold stageRequest at hq
    simp only at hq
    split at hq
    · cases hq
    · cases hq
      rfl

/-- What separates the mark from a new snapshot, above the allowance. -/
theorem overageUnits_max (base m n : Int) :
    overageUnits base m (max m n) = max 0 (overage base n - overage base m) := by
  rw [overageUnits_eq, (overage_mono base).map_max]
  omega

/-- A `stage` call on an open record that nothing refuses requests what `stageReport` has. -/
theorem stageOn_units (hopen : u.billed = false)
    (hclosing : ∀ r ∈ reports, ∀ i, truthy a.closingInvoiceId = some i →
      r.closingInvoiceId ≠ some i)
    (hplan : (getPlanConfig a.sub.plan).payAsYouGo = true ∨ reports ≠ [])
    {customer : String} (hcustomer : truthy (stageCustomer a.sub (byCreation reports)) = some customer) :
    ∃ out, stageOn u reports a = .ok out ∧
      ∀ c, out.units c = (stageReport u (byCreation reports) a customer).units c := by
  have hnone : (truthy a.closingInvoiceId).bind (fun i =>
      (byCreation reports).find? (fun r => r.closingInvoiceId = some i)) = none := by
    refine Option.bind_eq_none_iff.mpr fun i hi => List.find?_eq_none.mpr fun r hr he => ?_
    exact hclosing r (mem_byCreation.mp hr) i hi (by simpa using he)
  have hpassed : (!(getPlanConfig a.sub.plan).payAsYouGo && (byCreation reports).isEmpty) = false := by
    rcases hplan with hpay | hne
    · rw [hpay]
      rfl
    · have hlen := (byCreation_perm reports).length_eq
      cases hb : byCreation reports with
      | nil =>
        rw [hb] at hlen
        exact absurd (List.length_eq_zero_iff.mp hlen.symm) hne
      | cons r rest => simp
  simp only [stageOn, hopen, Bool.false_and, hnone, hpassed, hcustomer, Bool.false_eq_true, if_false]
  split
  next hquiet =>
    refine ⟨.nothing, rfl, fun c => ?_⟩
    have hrequest : (stageReport u (byCreation reports) a customer).requests c = none :=
      stageRequest_none_of_status hquiet.1 c
    simp [StageOutcome.units, BillingReport.units, hrequest]
  · exact ⟨_, rfl, fun c => rfl⟩

/-- A plan with the allowances of a plan that bills by usage bills by usage. -/
theorem payAsYouGo_of_allowances {plan plan' : SubscriptionPlan}
    (hplan' : (getPlanConfig plan').payAsYouGo = true)
    (h : ∀ c, getLimitForCategory plan c = some (plan'.base c)) :
    (getPlanConfig plan).payAsYouGo = true := by
  have htraces := h .traces
  revert hplan' htraces
  cases plan <;> cases plan' <;> decide

/-- The first report of a record, if there is one. -/
theorem head_byCreation (reports : List BillingReport) :
    reports = [] ∨ ∃ r ∈ reports, (byCreation reports).head? = some r := by
  cases hb : byCreation reports with
  | nil =>
    refine Or.inl (List.eq_nil_iff_forall_not_mem.mpr fun r hr => ?_)
    rw [← mem_byCreation, hb] at hr
    exact absurd hr List.not_mem_nil
  | cons r rest =>
    refine Or.inr ⟨r, ?_, rfl⟩
    rw [← mem_byCreation, hb]
    exact List.mem_cons_self ..

/-- The plan has the allowances that the reports have frozen. -/
def Allows (plan : SubscriptionPlan) (reports : List BillingReport) : Prop :=
  ∀ r ∈ reports, ∀ c, getLimitForCategory plan c = some (r.pricing.base c)

theorem InOrder.payAsYouGo (h : InOrder s) {plan : SubscriptionPlan}
    (hplan : Allows plan (s.db.reportsFor t)) (hne : s.db.reportsFor t ≠ []) :
    (getPlanConfig plan).payAsYouGo = true := by
  obtain ⟨r, hr⟩ := List.exists_mem_of_ne_nil _ hne
  obtain ⟨-, plan', hpay, hpricing⟩ := h.priced r (mem_reportsFor.mp hr).1
  exact payAsYouGo_of_allowances hpay fun c => by rw [hplan r hr c, hpricing]

theorem InOrder.customer (h : InOrder s) (hsub : s.db.subscription = some a.sub)
    (hpay : (getPlanConfig a.sub.plan).payAsYouGo = true) (t : DateTime) :
    ∃ customer, truthy (stageCustomer a.sub (byCreation (s.db.reportsFor t))) = some customer := by
  refine Option.isSome_iff_exists.mp ?_
  rcases head_byCreation (s.db.reportsFor t) with hnil | ⟨r, hr, hhead⟩
  · rw [hnil]
    exact h.chargeable a.sub hsub (Or.inl hpay)
  · simp only [stageCustomer, hhead]
    exact (h.priced r (mem_reportsFor.mp hr).1).1

/-- An open record is not closed by any of its reports. -/
theorem ClosedBilled.unclosed (h : ClosedBilled s.db) (hu : s.db.usage t = some u)
    (hopen : u.billed = false) {r : BillingReport} (hr : r ∈ s.db.reportsFor t) {i : String}
    (hi : truthy a.closingInvoiceId = some i) : r.closingInvoiceId ≠ some i := by
  intro he
  obtain ⟨hmem, rfl⟩ := mem_reportsFor.mp hr
  have htruthy : (truthy r.closingInvoiceId).isSome = true := by
    rw [he, ← Option.eq_some_of_filter_eq_some hi, hi]
    rfl
  obtain ⟨v, hv, hbilled⟩ := h r hmem htruthy
  obtain rfl : u = v := Option.some.inj (hu.symm.trans hv)
  rw [hopen] at hbilled
  cases hbilled

/-- **Both measures agree**: the allowances are the same, and the watermark is level with what
is reserved. -/
theorem InOrder.units_eq (h : InOrder s) (hu : s.db.usage t = some u)
    (hplan : Allows a.sub.plan (s.db.reportsFor t))
    (hall : ∀ r ∈ s.db.reportsFor t, r.status = .reported) (customer : String)
    (c : UsageCategory) :
    (stageReport u (byCreation (s.db.reportsFor t)) a customer).units c =
      max 0 (overage (a.sub.plan.base c) (u.count c) -
        overage (a.sub.plan.base c) (u.reported c)) := by
  obtain ⟨r0, hsound, hlevel⟩ := h.level t u hu
  have hmark : reservedCount u (byCreation (s.db.reportsFor t)) c =
      topMark r0 c ((s.db.reportsFor t).map BillingReport.reservation) :=
    @UsageLedger.reservedCount_eq_topMark r0 ⟨u, s.db.reportsFor t⟩ hsound.reserved c
  rw [stageReport_units, snapshotCount, overageUnits_max, hmark]
  rcases head_byCreation (s.db.reportsFor t) with hnil | ⟨r, hr, hhead⟩
  · have hle := hsound.reserved.reported_le c
    have hge := hsound.reserved.start_le c
    rw [hnil] at hle ⊢
    rw [show topMark r0 c ([].map BillingReport.reservation) = u.reported c from
      le_antisymm hge hle]
    rfl
  · have hpricing : stagePricing a.sub (byCreation (s.db.reportsFor t)) = r.pricing := by
      rw [stagePricing, hhead]
    have hbase : a.sub.plan.base c = r.pricing.base c := by
      rw [SubscriptionPlan.base, hplan r hr c]
      rfl
    rw [hpricing, hbase, hlevel hall r hr c]

end Units

/-- **The displayed and the reserved overage agree.**  In every state of every run that starts
with nothing staged, for every record that is not billed, all of whose reports are reported and
have frozen the allowances of the current plan: a `stage` call at that moment does not fail,
and in every category it requests exactly the units that `calculate_unreported_overages`
returns. -/
theorem displayed_eq_reserved {s₀ : ReportDesk} (h₀ : s₀.Opened) (hsub₀ : s₀.db.Chargeable)
    (hreach : GuardedRun.Reach (fun s a => s.stepBilling a) GuardedRun.Always s₀ s)
    {periodStart : Option DateTime} {a : StageArgs} (hsub : s.db.subscription = some a.sub)
    (ht : periodStart.getD a.sub.currentPeriodStart = t) (hu : s.db.usage t = some u)
    (hopen : u.billed = false) (hplan : Allows a.sub.plan (s.db.reportsFor t))
    (hall : ∀ r ∈ s.db.reportsFor t, r.status = .reported) :
    ∃ out, stageOn u (s.db.reportsFor t) a = .ok out ∧
      ∀ c, (s.db.calculateUnreportedOverages periodStart).overage c = out.units c := by
  obtain ⟨h, hclosed⟩ : InOrder s ∧ ClosedBilled s.db := by
    refine hreach.invariant (I := fun s => InOrder s ∧ ClosedBilled s.db)
      (inOrder_of_opened h₀ hsub₀) ?_
    rintro s a s' ⟨h, hc⟩ - hs
    exact h.step hc hs
  cases hpay : (getPlanConfig a.sub.plan).payAsYouGo with
  | false =>
    -- a plan without overage has staged nothing, and stages nothing
    have hnil : s.db.reportsFor t = [] := by
      by_contra hne
      rw [h.payAsYouGo hplan hne] at hpay
      cases hpay
    refine ⟨.nothing, ?_, fun c => ?_⟩
    · rw [hnil]
      simp [stageOn, hopen, hpay]
    · simp [BillingDb.calculateUnreportedOverages, hsub, hpay, OverageDetail.zero, StageOutcome.units]
  | true =>
    obtain ⟨customer, hcustomer⟩ := h.customer hsub hpay t
    obtain ⟨out, hout, hunits⟩ := stageOn_units hopen
      (fun r hr i hi => hclosed.unclosed hu hopen hr hi) (Or.inl hpay) hcustomer
    refine ⟨out, hout, fun c => ?_⟩
    rw [hunits, h.units_eq hu hplan hall]
    simp [BillingDb.calculateUnreportedOverages, hsub, hpay, BillingDb.getCurrentUsageRecord, ht, hu,
      hopen]

/-- The desk of the heavy period, with its subscription stored. -/
def subscribedDesk : ReportDesk := { heavyDesk with db := heavyDesk.db.putSubscription heavySub }

/-- A report is staged and delivered, and a thousand more traces are counted. -/
def toNextThousand : List BillingAct :=
  (toFinish ++ [DeskAct.finish 1, .upsertUsageCounters "org" 0 (DateTime.days 30)
    (fun c => if c = .traces then 7000 else 0)]).map .desk

/-- The thousand traces are what is shown, and what a `stage` call requests. -/
theorem displayed_eq_reserved_thousand :
    ∃ s u out, GuardedRun.run (fun s a => s.stepBilling a) subscribedDesk toNextThousand = some s ∧
      s.db.usage 0 = some u ∧
      stageOn u (s.db.reportsFor 0) ⟨heavySub, none, none, false, "rep2", 0⟩ = .ok out ∧
      out.units .traces = 1000 ∧
      ∀ c, (s.db.calculateUnreportedOverages none).overage c = out.units c := by
  have hview : ((GuardedRun.run (fun s a => s.stepBilling a) subscribedDesk toNextThousand).bind
      fun s => (s.db.usage 0).map fun u => decide (s.db.subscription = some heavySub ∧
        u.billed = false ∧ (s.db.reportsFor 0).map (fun r =>
          (r.status, UsageCategory.all.map r.pricing.base)) = [(.reported, [5000, 5000, 100])] ∧
        (s.db.calculateUnreportedOverages none).overage .traces = 1000)) = some true := by
    decide +kernel
  obtain ⟨s, hs, hrest⟩ := Option.bind_eq_some_iff.mp hview
  obtain ⟨u, hu, hv⟩ := Option.map_eq_some_iff.mp hrest
  obtain ⟨hsub, hopen, hrows, hshown⟩ := of_decide_eq_true hv
  have hrow : ∀ r ∈ s.db.reportsFor 0,
      r.status = .reported ∧ UsageCategory.all.map r.pricing.base = [5000, 5000, 100] := by
    intro r hr
    have hmem := List.mem_map_of_mem (f := fun r : BillingReport =>
      (r.status, UsageCategory.all.map r.pricing.base)) hr
    rw [hrows] at hmem
    exact Prod.mk.inj (List.mem_singleton.mp hmem)
  have hplan : Allows heavySub.plan (s.db.reportsFor 0) := by
    intro r hr c
    have hbase := (hrow r hr).2
    simp only [UsageCategory.all, List.map_cons, List.map_nil, List.cons.injEq, and_true] at hbase
    obtain ⟨htraces, hevals, hsessions⟩ := hbase
    cases c
    · rw [htraces]; rfl
    · rw [hevals]; rfl
    · rw [hsessions]; rfl
  have hchargeable : subscribedDesk.db.Chargeable := by
    rintro sub ⟨⟩ -
    rfl
  have hopened : subscribedDesk.Opened := ⟨rfl, fun _ => rfl, fun _ => rfl, fun _ => rfl⟩
  have hstart : (none : Option DateTime).getD heavySub.currentPeriodStart = 0 := rfl
  obtain ⟨out, hout, hunits⟩ := displayed_eq_reserved hopened hchargeable
    (GuardedRun.reach_of_run hs) (a := ⟨heavySub, none, none, false, "rep2", 0⟩) hsub hstart hu hopen
    hplan fun r hr => (hrow r hr).1
  exact ⟨s, u, out, hs, hu, hout, by rw [← hunits, hshown], hunits⟩

end ReportDesk
end PandaProbe
