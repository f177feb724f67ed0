import PandaProbe.BillingReporting

/-! # One usage record and everything staged for it

The `FOR UPDATE` lock on a usage row serialises `stage` and `finish`, so the
history of one record is a sequence of atomic writes: counter writes by the
usage sync, the closing of the period, `stage` calls, and what `deliver` writes
to the reports.  `UsageLedger.step` performs one of them and `UsageLedger.run` a
whole history.

The invariant (`Reserved`) is about the part of a report that staging fixes for
good, its `Reservation`; deliveries leave it alone (`write_reservation`), so an
induction over a history only has to look at `stage` and `finish`.
-/
namespace PandaProbe
open HighWater

/-- The writes `deliver` commits to a pending report, short of finishing it. -/
inductive DeliveryWrite
  | attempt (dropInvoice : Bool) (now : DateTime)
  | carryOver
  | recordItem (item : String)
  | review (reason : String)

/-- One write of `deliver`.  It only touches a pending report, and the category it
writes is always the first one without a Stripe item. -/
def BillingReport.write (r : BillingReport) (w : DeliveryWrite) : BillingReport :=
  if r.status = .pending then
    match r.nextCategory with
    | none => r
    | some c =>
      match r.requests c with
      | none => r
      | some q =>
        match w with
        | .attempt dropInvoice now =>
            if r.attemptedAt c = none then
              r.attempt c (if dropInvoice then q.dropInvoice else q) now
            else r
        | .carryOver => if r.attemptedAt c = none then r else r.carryOver c q
        | .recordItem item => if r.attemptedAt c = none then r else r.recordItem c item
        | .review reason => r.review reason
  else r

/-- The part of a report that staging fixes for good: snapshots, pricing, and the
count interval of each request. -/
structure Reservation where
  snapshot : UsageCategory → Int
  pricing : Pricing
  span : UsageCategory → Option (Int × Int)

/-- The count interval `(from_count, to_count]` a request names. -/
def ChargeRequest.span (q : ChargeRequest) : Int × Int := (q.metadata.fromCount, q.metadata.toCount)

/-- What a report reserves. -/
def BillingReport.reservation (r : BillingReport) : Reservation :=
  ⟨r.snapshot, r.pricing, fun c => (r.requests c).map ChargeRequest.span⟩

@[simp] theorem ChargeRequest.dropInvoice_span (q : ChargeRequest) : q.dropInvoice.span = q.span :=
  rfl

@[simp] theorem ChargeRequest.carryover_span (q : ChargeRequest) : q.carryover.span = q.span := rfl

/-- Replacing a request by one with the same interval changes no reservation. -/
theorem map_span_update {requests : UsageCategory → Option ChargeRequest} {c : UsageCategory}
    {q q' : ChargeRequest} (hq : requests c = some q) (hspan : q'.span = q.span)
    (d : UsageCategory) :
    (Function.update requests c (some q') d).map ChargeRequest.span =
      (requests d).map ChargeRequest.span := by
  by_cases hd : d = c
  · subst hd
    simp [hq, hspan]
  · rw [Function.update_of_ne hd]

/-- **Deliveries never touch a reservation.** -/
theorem BillingReport.write_reservation (r : BillingReport) (w : DeliveryWrite) :
    (r.write w).reservation = r.reservation := by
  unfold BillingReport.write
  split
  · split
    · rfl
    · split
      · rfl
      · rename_i c _ q hq
        cases w with
        | attempt dropInvoice now =>
          simp only
          split
          · refine congrArg (Reservation.mk r.snapshot r.pricing) (funext fun d => ?_)
            exact map_span_update hq (by split <;> rfl) d
          · rfl
        | carryOver =>
          simp only
          split
          · rfl
          · refine congrArg (Reservation.mk r.snapshot r.pricing) (funext fun d => ?_)
            exact map_span_update hq q.carryover_span d
        | recordItem item => simp only; split <;> rfl
        | review reason => rfl
  · rfl

/-- A usage record and the reports staged for it, in the order of staging. -/
structure UsageLedger where
  usage : UsageRecord
  reports : List BillingReport

/-- One atomic write to a usage record or to one of its reports. -/
inductive LedgerOp
  | upsertUsageCounters (counts : UsageCategory → Int)
  | markBilled (invoiceId : Option String)
  | stage (a : StageArgs)
  | deliver (id : UUID) (w : DeliveryWrite)
  | finish (id : UUID)

namespace UsageLedger

/-- A record nothing has been staged for yet. -/
def start (usage : UsageRecord) : UsageLedger := ⟨usage, []⟩

/-- Perform one write.  A `stage` call that raises or returns without a new
report leaves the rows as they are; `deliver` finishes a report once no category
is left. -/
def step (s : UsageLedger) : LedgerOp → UsageLedger
  | .upsertUsageCounters counts => { s with usage := { s.usage with count := counts } }
  | .markBilled invoiceId =>
      { s with usage := { s.usage with billed := true, stripeInvoiceId := invoiceId } }
  | .stage a =>
      match stageOn s.usage s.reports a with
      | .ok (.created r) => { s with reports := s.reports ++ [r] }
      | _ => s
  | .deliver id w =>
      { s with reports := s.reports.map (fun r => if r.id = id then r.write w else r) }
  | .finish id =>
      if s.reports.any (fun r => r.id = id ∧ r.status = .pending ∧ r.nextCategory = none) then
        { usage := finishUsage s.usage s.reports id
          reports := s.reports.map (fun r => if r.id = id then r.confirm else r) }
      else s

/-- A whole history. -/
def run (s : UsageLedger) (ops : List LedgerOp) : UsageLedger := ops.foldl step s

/-- The reservations of a record, in the order of staging. -/
def reservations (s : UsageLedger) : List Reservation := s.reports.map BillingReport.reservation

end UsageLedger

/-! ## The reservation invariant -/

/-- The overage part of a count: what lies above the included allowance. -/
def overage (base n : Int) : Int := max 0 (n - base)

theorem overageUnits_eq (base reserved snapshot : Int) :
    overageUnits base reserved snapshot = overage base snapshot - overage base reserved := rfl

theorem overage_mono (base : Int) : Monotone (overage base) :=
  fun _ _ h => max_le_max (le_refl 0) (sub_le_sub_right h base)

/-- The intervals reserved for a category, in the order of staging. -/
def spans (c : UsageCategory) (l : List Reservation) : List (Int × Int) :=
  l.filterMap (fun x => x.span c)

/-- The mark of a category: the largest of the initial watermark and all snapshots. -/
def topMark (r0 : UsageCategory → Int) (c : UsageCategory) (l : List Reservation) : Int :=
  mark (r0 c) (l.map (fun x => x.snapshot c))

theorem topMark_concat (r0 : UsageCategory → Int) (c : UsageCategory) (l : List Reservation)
    (x : Reservation) : topMark r0 c (l ++ [x]) = max (topMark r0 c l) (x.snapshot c) := by
  simp [topMark]

theorem spans_concat (c : UsageCategory) (l : List Reservation) (x : Reservation) :
    spans c (l ++ [x]) = spans c l ++ (x.span c).toList := by
  simp only [spans, List.filterMap_append]
  cases h : x.span c <;> simp [h]

/-- What holds of a record at every point of its history, for the watermark `r0`
it started from: the watermark lies between `r0` and the mark; all reports price
alike; the reserved intervals are stacked below the mark; and the units above the
allowance add up to what separates `r0` from the mark. -/
structure Reserved (r0 reported : UsageCategory → Int) (l : List Reservation) : Prop where
  start_le : ∀ c, r0 c ≤ reported c
  reported_le : ∀ c, reported c ≤ topMark r0 c l
  uniform : ∀ x ∈ l, ∀ y ∈ l, x.pricing = y.pricing
  stacked : ∀ c, Stacked (spans c l)
  span_le : ∀ c, ∀ p ∈ spans c l, p.2 ≤ topMark r0 c l
  charged_eq : ∀ c, ∀ x ∈ l, charged (overage (x.pricing.base c)) (spans c l) =
    overage (x.pricing.base c) (topMark r0 c l) - overage (x.pricing.base c) (r0 c)

theorem Reserved.initial (r0 : UsageCategory → Int) : Reserved r0 r0 [] where
  start_le _ := le_refl _
  reported_le _ := le_refl _
  uniform _ hx := by cases hx
  stacked _ := stacked_nil
  span_le _ _ hp := by cases hp
  charged_eq _ _ hx := by cases hx

/-- The shape of a new reservation: it starts at the mark, and names an interval
exactly when that interval has units above the allowance. -/
structure Extends (r0 : UsageCategory → Int) (l : List Reservation) (x : Reservation) : Prop where
  mark_le : ∀ c, topMark r0 c l ≤ x.snapshot c
  pricing : ∀ y ∈ l, x.pricing = y.pricing
  span : ∀ c, x.span c =
    if overageUnits (x.pricing.base c) (topMark r0 c l) (x.snapshot c) ≤ 0 then none
    else some (topMark r0 c l, x.snapshot c)

theorem Extends.topMark_concat {r0 : UsageCategory → Int} {l : List Reservation}
    {x : Reservation} (hx : Extends r0 l x) (c : UsageCategory) :
    topMark r0 c (l ++ [x]) = x.snapshot c := by
  rw [PandaProbe.topMark_concat, max_eq_right (hx.mark_le c)]

/-- A new reservation costs what separates the old mark from its snapshot. -/
theorem Extends.charged {r0 : UsageCategory → Int} {l : List Reservation} {x : Reservation}
    (hx : Extends r0 l x) (c : UsageCategory)
    (h : charged (overage (x.pricing.base c)) (spans c l) =
      overage (x.pricing.base c) (topMark r0 c l) - overage (x.pricing.base c) (r0 c)) :
    HighWater.charged (overage (x.pricing.base c)) (spans c (l ++ [x])) =
      overage (x.pricing.base c) (x.snapshot c) - overage (x.pricing.base c) (r0 c) := by
  rw [spans_concat, hx.span c]
  split
  · -- no interval: the snapshot may be above the mark, but not above the allowance
    rename_i hunits
    have hmono := overage_mono (x.pricing.base c) (hx.mark_le c)
    rw [overageUnits_eq] at hunits
    simp only [Option.toList_none, List.append_nil, h]
    omega
  · exact charged_concat h

/-- **One reservation keeps the invariant.** -/
theorem Reserved.concat {r0 reported : UsageCategory → Int} {l : List Reservation}
    (h : Reserved r0 reported l) {x : Reservation} (hx : Extends r0 l x) :
    Reserved r0 reported (l ++ [x]) where
  start_le := h.start_le
  reported_le c := by
    rw [hx.topMark_concat c]
    exact le_trans (h.reported_le c) (hx.mark_le c)
  uniform := by
    intro y hy z hz
    have hsame : ∀ w ∈ l ++ [x], w.pricing = x.pricing := by
      intro w hw
      rcases List.mem_append.mp hw with hw | hw
      · exact (hx.pricing w hw).symm
      · rw [List.mem_singleton.mp hw]
    rw [hsame y hy, hsame z hz]
  stacked c := by
    rw [spans_concat, hx.span c]
    split
    · simpa using h.stacked c
    · exact (h.stacked c).concat (h.span_le c)
  span_le c p hp := by
    rw [hx.topMark_concat c]
    rw [spans_concat] at hp
    rcases List.mem_append.mp hp with hp | hp
    · exact le_trans (h.span_le c p hp) (hx.mark_le c)
    · rw [hx.span c] at hp
      split at hp
      · cases hp
      · rw [Option.toList_some, List.mem_singleton] at hp
        rw [hp]
  charged_eq c y hy := by
    have hpr : y.pricing = x.pricing := by
      rcases List.mem_append.mp hy with hy | hy
      · exact (hx.pricing y hy).symm
      · rw [List.mem_singleton.mp hy]
    rw [hpr, hx.topMark_concat c]
    refine hx.charged c ?_
    -- the first reservation fixes the pricing of all the later ones
    cases l with
    | nil => simp [spans, topMark]
    | cons z l =>
      have hz : z ∈ z :: l := List.mem_cons_self ..
      rw [hx.pricing z hz]
      exact h.charged_eq c z hz

/-- Moving the watermark anywhere between where it is and the mark is harmless. -/
theorem Reserved.advance {r0 reported reported' : UsageCategory → Int} {l : List Reservation}
    (h : Reserved r0 reported l) (hle : ∀ c, reported c ≤ reported' c)
    (hmark : ∀ c, reported' c ≤ topMark r0 c l) : Reserved r0 reported' l :=
  { h with
    start_le := fun c => le_trans (h.start_le c) (hle c)
    reported_le := hmark }

/-! ## Every history keeps it -/

namespace UsageLedger

/-- The reserved count `stage` computes is the mark. -/
theorem reservedCount_eq_topMark {r0 : UsageCategory → Int} {s : UsageLedger}
    (h : Reserved r0 s.usage.reported s.reservations) (c : UsageCategory) :
    reservedCount s.usage (byCreation s.reports) c = topMark r0 c s.reservations := by
  have hsnap : s.reservations.map (fun x => x.snapshot c) =
      s.reports.map (fun r => r.snapshot c) := by
    simp [reservations, BillingReport.reservation, Function.comp_def]
  have hperm : ((byCreation s.reports).map (fun r => r.snapshot c)).Perm
      (s.reservations.map (fun x => x.snapshot c)) := by
    rw [hsnap]
    exact (byCreation_perm s.reports).map _
  unfold reservedCount topMark
  rw [mark_perm hperm]
  exact mark_of_between (h.start_le c) (h.reported_le c)

/-- **A staged report extends the reservations of its record.** -/
theorem extends_of_stage {r0 : UsageCategory → Int} {s : UsageLedger}
    (h : Reserved r0 s.usage.reported s.reservations) (a : StageArgs) (customer : String) :
    Extends r0 s.reservations
      (stageReport s.usage (byCreation s.reports) a customer).reservation where
  mark_le c := by
    rw [← reservedCount_eq_topMark h c]
    exact le_max_left _ _
  pricing y hy := by
    obtain ⟨r, hr, rfl⟩ := List.mem_map.mp hy
    show stagePricing a.sub (byCreation s.reports) = r.pricing
    -- the pricing is copied from the oldest report, and all reports have one pricing
    cases hp : byCreation s.reports with
    | nil =>
      have := mem_byCreation.mpr hr
      rw [hp] at this
      cases this
    | cons first rest =>
      have hfirst : first ∈ s.reports := by
        rw [← mem_byCreation, hp]
        exact List.mem_cons_self ..
      exact h.uniform _ (List.mem_map_of_mem hfirst) _ hy
  span c := by
    rw [← reservedCount_eq_topMark h c]
    simp only [BillingReport.reservation, stageReport, stageRequest]
    rw [apply_ite (Option.map ChargeRequest.span)]
    rfl

/-- What one write can do to a record's watermark and reservations. -/
theorem step_cases (s : UsageLedger) (op : LedgerOp) :
    ((s.step op).usage.reported = s.usage.reported ∧
      (s.step op).reservations = s.reservations) ∨
    (∃ a customer, (s.step op).usage.reported = s.usage.reported ∧
      (s.step op).reservations = s.reservations ++
        [(stageReport s.usage (byCreation s.reports) a customer).reservation]) ∨
    (∃ id, (s.step op).usage = finishUsage s.usage s.reports id ∧
      (s.step op).reservations = s.reservations) := by
  cases op with
  | upsertUsageCounters counts => exact Or.inl ⟨rfl, rfl⟩
  | markBilled invoiceId => exact Or.inl ⟨rfl, rfl⟩
  | stage a =>
    simp only [step]
    split
    · rename_i r hr
      obtain ⟨customer, rfl, -⟩ := stageOn_created hr
      exact Or.inr (Or.inl ⟨a, customer, rfl, by simp [reservations]⟩)
    · exact Or.inl ⟨rfl, rfl⟩
  | deliver id w =>
    refine Or.inl ⟨rfl, ?_⟩
    simp only [step, reservations, List.map_map]
    refine List.map_congr_left (fun r _ => ?_)
    simp only [Function.comp_apply]
    split
    · exact r.write_reservation w
    · rfl
  | finish id =>
    simp only [step]
    split
    · refine Or.inr (Or.inr ⟨id, rfl, ?_⟩)
      simp only [reservations, List.map_map]
      refine List.map_congr_left (fun r _ => ?_)
      simp only [Function.comp_apply]
      split <;> rfl
    · exact Or.inl ⟨rfl, rfl⟩

/-- **One write keeps the invariant.** -/
theorem reserved_step {r0 : UsageCategory → Int} {s : UsageLedger}
    (h : Reserved r0 s.usage.reported s.reservations) (op : LedgerOp) :
    Reserved r0 (s.step op).usage.reported (s.step op).reservations := by
  rcases s.step_cases op with ⟨hu, hr⟩ | ⟨a, customer, hu, hr⟩ | ⟨id, hu, hr⟩
  · rw [hu, hr]; exact h
  · rw [hu, hr]; exact h.concat (extends_of_stage h a customer)
  · rw [hu, hr]
    refine h.advance (le_finishUsage_reported s.usage s.reports id) (fun c => ?_)
    refine le_trans (finishUsage_reported_le s.usage s.reports id c) ?_
    refine mark_le (h.reported_le c) (fun x hx => ?_)
    obtain ⟨r, hr, rfl⟩ := List.mem_map.mp hx
    exact le_mark_of_mem (List.mem_map.mpr ⟨r.reservation, List.mem_map_of_mem hr, rfl⟩)

/-- **Every history keeps the invariant.** -/
theorem reserved_run {r0 : UsageCategory → Int} {s : UsageLedger}
    (h : Reserved r0 s.usage.reported s.reservations) (ops : List LedgerOp) :
    Reserved r0 (s.run ops).usage.reported (s.run ops).reservations := by
  induction ops generalizing s with
  | nil => exact h
  | cons op ops ih => exact ih (reserved_step h op)

/-! ## Overage is reserved exactly once -/

/-- Every request ever staged for a category, in the order of staging. -/
def requests (s : UsageLedger) (c : UsageCategory) : List ChargeRequest :=
  s.reports.filterMap (fun r => r.requests c)

/-- The units of every request staged for a category, as `stage` counts them. -/
def stagedUnits (s : UsageLedger) (c : UsageCategory) : Int :=
  (s.reports.map (fun r =>
    match r.requests c with
    | none => 0
    | some q => overageUnits (r.pricing.base c) q.metadata.fromCount q.metadata.toCount)).sum

/-- The allowance frozen in the first report's pricing (none before the first report). -/
def frozenBase (s : UsageLedger) (c : UsageCategory) : Int :=
  match s.reports.head? with
  | none => 0
  | some r => r.pricing.base c

/-- The maximum of `r0` and of the snapshots of every report staged. -/
def maxSnapshot (s : UsageLedger) (r0 : Int) (c : UsageCategory) : Int :=
  mark r0 (s.reports.map (fun r => r.snapshot c))

theorem spans_reservations (s : UsageLedger) (c : UsageCategory) :
    spans c s.reservations = (s.requests c).map ChargeRequest.span := by
  simp only [spans, reservations, requests, List.filterMap_map, List.map_filterMap]
  rfl

theorem topMark_reservations (s : UsageLedger) (r0 : UsageCategory → Int) (c : UsageCategory) :
    topMark r0 c s.reservations = s.maxSnapshot (r0 c) c := by
  simp [topMark, maxSnapshot, reservations, BillingReport.reservation, Function.comp_def]

/-- Reports that price alike charge their units by one and the same function. -/
theorem stagedUnits_eq_charged {s : UsageLedger} {c : UsageCategory} {base : Int}
    (h : ∀ r ∈ s.reports, r.pricing.base c = base) :
    s.stagedUnits c = charged (overage base) (spans c s.reservations) := by
  obtain ⟨usage, reports⟩ := s
  induction reports with
  | nil => rfl
  | cons r reports ih =>
    have hr := h r (List.mem_cons_self ..)
    have ih' := ih (fun r' hr' => h r' (List.mem_cons_of_mem _ hr'))
    simp only [stagedUnits, List.map_cons, List.sum_cons, reservations, spans] at ih' ⊢
    rw [ih']
    cases hq : r.requests c with
    | none => simp [BillingReport.reservation, hq]
    | some q =>
      rw [hr, List.filterMap_cons_some (b := q.span)
        (by simp [BillingReport.reservation, hq])]
      rfl

/-- **Overage is reserved exactly once.**  After any history of a usage record,
and for every category, the count intervals of all requests ever staged are
pairwise disjoint, and their units add up to the overage between the watermark
the record started from and the largest count any report has snapshotted, over
the allowance frozen in the first report. -/
theorem overage_reserved_once (usage : UsageRecord) (ops : List LedgerOp) (c : UsageCategory) :
    let s := (start usage).run ops
    (s.requests c).Pairwise (fun p q =>
      Disjoint (Set.Ioc p.metadata.fromCount p.metadata.toCount)
        (Set.Ioc q.metadata.fromCount q.metadata.toCount)) ∧
    s.stagedUnits c =
      max 0 (s.maxSnapshot (usage.reported c) c - s.frozenBase c) -
        max 0 (usage.reported c - s.frozenBase c) := by
  intro s
  have h : Reserved usage.reported s.usage.reported s.reservations :=
    reserved_run (s := start usage) (Reserved.initial usage.reported) ops
  constructor
  · have hd := (h.stacked c).pairwise_disjoint
    rw [spans_reservations, List.pairwise_map] at hd
    exact hd
  -- without a report nothing is reserved and there is no frozen allowance
  · cases hreports : s.reports with
    | nil => simp [stagedUnits, maxSnapshot, hreports]
    | cons first rest =>
      have hfirst : first ∈ s.reports := by rw [hreports]; exact List.mem_cons_self ..
      have hbase : s.frozenBase c = first.pricing.base c := by simp [frozenBase, hreports]
      have hsame : ∀ r ∈ s.reports, r.pricing.base c = first.pricing.base c := by
        intro r hr
        have := h.uniform _ (List.mem_map_of_mem hr) _ (List.mem_map_of_mem hfirst)
        exact congrArg (fun p : Pricing => p.base c) this
      have hcharged := h.charged_eq c first.reservation (List.mem_map_of_mem hfirst)
      rw [hbase, stagedUnits_eq_charged hsame, ← topMark_reservations]
      exact hcharged

/-- The request of a staged report asks for exactly the price of the units it
names, at the unit price the report froze. -/
theorem stageRequest_amount {usage : UsageRecord} {previous : List BillingReport}
    {a : StageArgs} {customer : String} {c : UsageCategory} {q : ChargeRequest}
    (h : (stageReport usage previous a customer).requests c = some q) :
    q.amount = (stageReport usage previous a customer).pricing.unitPrice.cents
      (overageUnits ((stageReport usage previous a customer).pricing.base c)
        q.metadata.fromCount q.metadata.toCount) := by
  simp only [stageReport, stageRequest] at h ⊢
  split at h
  · cases h
  · cases h; rfl

end UsageLedger
end PandaProbe
