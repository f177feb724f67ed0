import PandaProbe.UsageLedger

/-! # Charges staged in batches

A `stage` call prices the units since the last one and rounds the price to whole cents, half a
cent up.  A unit costs a fraction of a cent, so every batch leaves a remainder that nobody keeps.
A batch is one write of the counters and the `stage` call after it; `Staged` says that none of the
calls returns early and that they all price alike.

`batch_charges_eq_iff` is the main result: the batches cost what one call at the last counters
would have cost if and only if their remainders add up to less than half a cent.
-/
namespace PandaProbe
open HighWater

/-- The counters are synced and `stage` is called. -/
structure Batch where
  counts : UsageCategory → Int
  args : StageArgs

/-- The two writes. -/
def Batch.ops (b : Batch) : List LedgerOp := [.upsertUsageCounters b.counts, .stage b.args]

/-- What rounding leaves of the price of some units, in cents scaled up by `2 * 10 ^ scale`. -/
def Decimal.remainderCents (d : Decimal) (units : Int) : Int :=
  remainder (10 ^ d.scale) (2 * (d.coeff * units * 100))

theorem Decimal.pow_scale_pos (d : Decimal) : (0 : Int) < 10 ^ d.scale := by positivity

/-- **The prices of batches are the price of their units** as long as the remainders add up to
less than half a cent. -/
theorem Decimal.sum_cents_eq_iff (d : Decimal) (units : List Int) :
    (units.map d.cents).sum = d.cents units.sum ↔
      -10 ^ d.scale ≤ (units.map d.remainderCents).sum ∧
        (units.map d.remainderCents).sum < 10 ^ d.scale := by
  have hsum : (units.map (fun u : Int => 2 * (d.coeff * u * 100))).sum =
      2 * (d.coeff * units.sum * 100) := by
    induction units with
    | nil => simp
    | cons u units ih =>
      simp only [List.map_cons, List.sum_cons, ih]
      ring
  have := sum_halfUp_eq_iff d.pow_scale_pos (units.map (fun u : Int => 2 * (d.coeff * u * 100)))
  rw [hsum, List.map_map, List.map_map] at this
  exact this

@[simp] theorem Decimal.cents_zero (d : Decimal) : d.cents 0 = 0 := by
  have := (d.sum_cents_eq_iff []).mpr ⟨by simp [d.pow_scale_pos.le], d.pow_scale_pos⟩
  exact this.symm

namespace UsageLedger
variable (s : UsageLedger)

/-- `stage` gets as far as pricing: the period is open, no report closes it for the same invoice,
overage is billed and there is a customer to bill. -/
def opens (a : StageArgs) : Bool :=
  !(s.usage.billed && !a.allowClosed) &&
    ((truthy a.closingInvoiceId).bind
      (fun i => (byCreation s.reports).find? (fun r => r.closingInvoiceId = some i))).isNone &&
    !(!(getPlanConfig a.sub.plan).payAsYouGo && (byCreation s.reports).isEmpty) &&
    (truthy (stageCustomer a.sub (byCreation s.reports))).isSome

/-- None of the batches returns early, and they are priced alike. -/
def Staged (p : Pricing) : UsageLedger → List Batch → Prop
  | _, [] => True
  | s, b :: bs => s.opens b.args = true ∧ stagePricing b.args.sub (byCreation s.reports) = p ∧
      Staged p (s.run b.ops) bs

/-- What all the requests of a category ask for. -/
def amountTotal (c : UsageCategory) : Int := ((s.requests c).map ChargeRequest.amount).sum

/-- What the requests that the batches stage ask for. -/
def batchAmount (c : UsageCategory) (bs : List Batch) : Int :=
  (s.run (bs.flatMap Batch.ops)).amountTotal c - s.amountTotal c

/-- The overage that is reserved already. -/
def level (base : Int) (c : UsageCategory) : Int :=
  overage base (reservedCount s.usage (byCreation s.reports) c)

/-- The units of each batch: how far its counter takes the overage above what is reserved. -/
def batchUnits (base : Int) (c : UsageCategory) (bs : List Batch) : List Int :=
  instalments (s.level base c) (bs.map (fun b => overage base (b.counts c)))

variable {s} {p : Pricing} {a : StageArgs} {b : Batch} {bs : List Batch} {c : UsageCategory}

/-- A call that is not turned away stores its report, unless there is nothing in it. -/
theorem stageOn_of_opens (h : s.opens a = true) : ∃ customer,
    stageOn s.usage s.reports a =
        .ok (.created (stageReport s.usage (byCreation s.reports) a customer)) ∨
      stageOn s.usage s.reports a = .ok .nothing ∧
        (stageReport s.usage (byCreation s.reports) a customer).status ≠ .pending := by
  simp only [opens, Bool.and_eq_true, Bool.not_eq_true', Option.isNone_iff_eq_none] at h
  obtain ⟨⟨⟨hbilled, hclosing⟩, hplan⟩, hcustomer⟩ := h
  obtain ⟨customer, hcustomer⟩ := Option.isSome_iff_exists.mp hcustomer
  refine ⟨customer, ?_⟩
  simp only [stageOn, hbilled, hclosing, hplan, hcustomer, Bool.false_eq_true, if_false]
  split
  next hempty => exact .inr ⟨rfl, hempty.1⟩
  · exact .inl rfl

/-- The units of a call: how far the counter takes the overage above what is reserved. -/
theorem overageUnits_level (base : Int) (c : UsageCategory) :
    overageUnits base (reservedCount s.usage (byCreation s.reports) c)
      (snapshotCount s.usage (byCreation s.reports) c) =
      max (s.level base c) (overage base (s.usage.count c)) - s.level base c := by
  rw [overageUnits_eq, snapshotCount, (overage_mono base).map_max]
  rfl

/-- The request of a call prices its units. -/
theorem sum_amount_stageRequest (hp : stagePricing a.sub (byCreation s.reports) = p)
    (customer : String) (c : UsageCategory) :
    ((stageRequest s.usage (byCreation s.reports) a customer c).toList.map
      ChargeRequest.amount).sum =
      p.unitPrice.cents (max (s.level (p.base c) c) (overage (p.base c) (s.usage.count c)) -
        s.level (p.base c) c) := by
  simp only [stageRequest, hp, overageUnits_level]
  split
  next hle =>
    have hzero : max (s.level (p.base c) c) (overage (p.base c) (s.usage.count c)) -
        s.level (p.base c) c = 0 := by omega
    simp [hzero]
  · simp

/-- The report that is added reserves up to its snapshot. -/
theorem level_addReport (base : Int) (c : UsageCategory) (customer : String) :
    level { s with reports := s.reports ++
      [stageReport s.usage (byCreation s.reports) a customer] } base c =
      max (s.level base c) (overage base (s.usage.count c)) := by
  have hperm : ((byCreation (s.reports ++
      [stageReport s.usage (byCreation s.reports) a customer])).map (fun r => r.snapshot c)).Perm
      ((byCreation s.reports).map (fun r => r.snapshot c) ++
        [snapshotCount s.usage (byCreation s.reports) c]) := by
    refine ((byCreation_perm _).map _).trans ?_
    rw [List.map_append]
    exact ((byCreation_perm s.reports).map _).symm.append_right _
  have hmark : reservedCount s.usage (byCreation (s.reports ++
      [stageReport s.usage (byCreation s.reports) a customer])) c =
      max (reservedCount s.usage (byCreation s.reports) c) (s.usage.count c) := by
    rw [reservedCount, mark_perm hperm, mark_concat]
    exact max_eq_right (le_max_left _ _)
  rw [level, hmark, (overage_mono base).map_max]
  rfl

/-- **One call**: what it adds to the bill, and where it leaves the reserved overage. -/
theorem stage_step (hopens : s.opens a = true)
    (hp : stagePricing a.sub (byCreation s.reports) = p) (c : UsageCategory) :
    (s.step (.stage a)).amountTotal c = s.amountTotal c + p.unitPrice.cents
        (max (s.level (p.base c) c) (overage (p.base c) (s.usage.count c)) -
          s.level (p.base c) c) ∧
      (s.step (.stage a)).level (p.base c) c =
        max (s.level (p.base c) c) (overage (p.base c) (s.usage.count c)) := by
  obtain ⟨customer, hcreated | ⟨hnothing, hstatus⟩⟩ := stageOn_of_opens hopens
  · have hstep : s.step (.stage a) = { s with reports := s.reports ++
        [stageReport s.usage (byCreation s.reports) a customer] } := by
      simp only [step, hcreated]
    rw [hstep]
    refine ⟨?_, level_addReport (p.base c) c customer⟩
    rw [← sum_amount_stageRequest hp customer c]
    simp only [amountTotal, requests, List.filterMap_append, List.map_append, List.sum_append]
    cases h : stageRequest s.usage (byCreation s.reports) a customer c <;>
      simp [stageReport, h]
  · -- nothing is stored, and there was nothing to price
    have hstep : s.step (.stage a) = s := by simp only [step, hnothing]
    have hnone := stageRequest_none_of_status hstatus c
    have hamount := sum_amount_stageRequest hp customer c
    rw [hnone] at hamount
    simp only [stageRequest, hp, overageUnits_level] at hnone
    rw [hstep, ← hamount]
    split at hnone
    next hle => exact ⟨by simp, by omega⟩
    · cases hnone

/-- What the batches add to the bill: the price of each one's units. -/
theorem batchAmount_eq (h : Staged p s bs) (c : UsageCategory) :
    s.batchAmount c bs = ((s.batchUnits (p.base c) c bs).map p.unitPrice.cents).sum := by
  induction bs generalizing s with
  | nil => simp [batchAmount, batchUnits, instalments, run]
  | cons b bs ih =>
    obtain ⟨hopens, hp, hrest⟩ := h
    -- the counters are written first, and `stage` reads them
    obtain ⟨hamount, hlevel⟩ :
        (s.run b.ops).amountTotal c = s.amountTotal c + p.unitPrice.cents
          (max (s.level (p.base c) c) (overage (p.base c) (b.counts c)) - s.level (p.base c) c) ∧
        (s.run b.ops).level (p.base c) c =
          max (s.level (p.base c) c) (overage (p.base c) (b.counts c)) :=
      stage_step (s := s.step (.upsertUsageCounters b.counts)) hopens hp c
    have hrun : s.run ((b :: bs).flatMap Batch.ops) =
        (s.run b.ops).run (bs.flatMap Batch.ops) := by
      simp [run]
    have hunits : s.batchUnits (p.base c) c (b :: bs) =
        (max (s.level (p.base c) c) (overage (p.base c) (b.counts c)) - s.level (p.base c) c) ::
          (s.run b.ops).batchUnits (p.base c) c bs := by
      rw [batchUnits, batchUnits, hlevel]
      rfl
    have htail := ih hrest
    rw [batchAmount, hamount] at htail
    rw [batchAmount, hrun, hunits, List.map_cons, List.sum_cons, ← htail]
    ring

/-- The last of counters that never go down takes the overage as far as all of them. -/
theorem sum_batchUnits {base : Int}
    (hsorted : ((bs ++ [b]).map (fun b => b.counts c)).Pairwise (· ≤ ·)) :
    (s.batchUnits base c (bs ++ [b])).sum =
      max (s.level base c) (overage base (b.counts c)) - s.level base c := by
  have hlast : ∀ x ∈ bs, x.counts c ≤ b.counts c := by
    rw [List.map_append, List.pairwise_append] at hsorted
    intro x hx
    exact hsorted.2.2 _ (List.mem_map_of_mem hx) _ (by simp)
  rw [batchUnits, sum_instalments, List.map_append, List.map_singleton, mark_concat]
  have hle : mark (s.level base c) (bs.map (fun b => overage base (b.counts c))) ≤
      max (s.level base c) (overage base (b.counts c)) := by
    refine mark_le (le_max_left _ _) (fun x hx => ?_)
    obtain ⟨y, hy, rfl⟩ := List.mem_map.mp hx
    exact le_max_of_le_right (overage_mono base (hlast y hy))
  have hge := le_mark (s.level base c) (bs.map (fun b => overage base (b.counts c)))
  omega

/-- **Charges in batches.**  Whatever the price and the allowance, batches staged at counters that
never go down ask for what one call at the last of them asks for if and only if the remainders
their rounding leaves add up to at least minus half a cent and to less than half a cent. -/
theorem batch_charges_eq_iff {single : Batch} (h : Staged p s (bs ++ [b]))
    (hsingle : Staged p s [single]) (hlast : single.counts c = b.counts c)
    (hsorted : ((bs ++ [b]).map (fun b => b.counts c)).Pairwise (· ≤ ·)) :
    s.batchAmount c (bs ++ [b]) = s.batchAmount c [single] ↔
      -10 ^ p.unitPrice.scale ≤
          ((s.batchUnits (p.base c) c (bs ++ [b])).map p.unitPrice.remainderCents).sum ∧
        ((s.batchUnits (p.base c) c (bs ++ [b])).map p.unitPrice.remainderCents).sum <
          10 ^ p.unitPrice.scale := by
  have hone : s.batchAmount c [single] =
      p.unitPrice.cents (s.batchUnits (p.base c) c (bs ++ [b])).sum := by
    rw [batchAmount_eq hsingle, sum_batchUnits hsorted, ← hlast]
    simp [batchUnits, instalments]
  rw [batchAmount_eq h, hone]
  exact p.unitPrice.sum_cents_eq_iff _

/-- A usage row of the paid plan. -/
def paidUsage : UsageLedger :=
  start (UsageRecord.fresh "org" 0 (DateTime.days 30))

/-- The traces are counted and staged. -/
def tracesBatch (n : Int) (reportId : UUID) : Batch where
  counts c := if c = .traces then n else 0
  args :=
    { sub := ⟨"org", .pro, .active, some "cus", some "sub", 0, DateTime.days 30, none⟩
      invoiceId := none
      closingInvoiceId := none
      allowClosed := false
      reportId := reportId
      createdAt := n }

/-- Batches of a thousand and of five hundred units, which are whole cents. -/
theorem batch_charges_eq_growth :
    paidUsage.batchAmount .traces [tracesBatch 6000 "a", tracesBatch 6500 "b"] =
      paidUsage.batchAmount .traces [tracesBatch 6500 "c"] := by
  have hpricing : Staged ⟨overageUnitPrice, SubscriptionPlan.pro.base⟩ paidUsage
      ([tracesBatch 6000 "a"] ++ [tracesBatch 6500 "b"]) :=
    ⟨by decide +kernel, by decide +kernel, by decide +kernel, by decide +kernel, trivial⟩
  have hsingle : Staged ⟨overageUnitPrice, SubscriptionPlan.pro.base⟩ paidUsage
      [tracesBatch 6500 "c"] := ⟨by decide +kernel, by decide +kernel, trivial⟩
  exact (batch_charges_eq_iff hpricing hsingle rfl (by decide +kernel)).mpr (by decide +kernel)

/-- Two batches of one unit cost nothing, and one of two units costs a cent. -/
theorem small_batches_free :
    Staged ⟨overageUnitPrice, SubscriptionPlan.pro.base⟩ paidUsage
        [tracesBatch 5001 "a", tracesBatch 5002 "b"] ∧
      Staged ⟨overageUnitPrice, SubscriptionPlan.pro.base⟩ paidUsage [tracesBatch 5002 "c"] ∧
      paidUsage.batchAmount .traces [tracesBatch 5001 "a", tracesBatch 5002 "b"] = 0 ∧
      paidUsage.batchAmount .traces [tracesBatch 5002 "c"] = 1 :=
  ⟨⟨by decide +kernel, by decide +kernel, by decide +kernel, by decide +kernel, trivial⟩,
    ⟨by decide +kernel, by decide +kernel, trivial⟩, by decide +kernel, by decide +kernel⟩

end UsageLedger
end PandaProbe
