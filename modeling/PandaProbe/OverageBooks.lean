import PandaProbe.OverageRun

/-! # The books behind the usage rows

What `stage` reserves for a usage record, against what is stored in it.  A pay-as-you-go
record is secured when none of its stored counters is above both the allowance and the
largest snapshot a report has reserved (`Secured`).

`Books` is what the rows keep over every commit, and `Evolves` what a commit leaves of the
records it does not write.  `stage` secures an open record (`stage_secures`), deliveries
touch no reservation (`deliver_cases`), and each commit of the handlers has one lemma that
says what it does to the books.
-/
namespace PandaProbe
open HighWater

namespace BillingDb
variable (db : BillingDb) (t : DateTime)

/-- The largest snapshot reserved for a record by a report, zero if there is none. -/
def largestSnapshot (c : UsageCategory) : Int :=
  mark 0 ((db.reports.filter (fun r => r.usageRecordId = t)).map (fun r => r.snapshot c))

variable {db t}

theorem largestSnapshot_nonneg (c : UsageCategory) : 0 ≤ db.largestSnapshot t c := le_mark _ _

theorem le_largestSnapshot {r : BillingReport} (hr : r ∈ db.reports) (ht : r.usageRecordId = t)
    (c : UsageCategory) : r.snapshot c ≤ db.largestSnapshot t c := by
  refine le_mark_of_mem (List.mem_map.mpr ⟨r, List.mem_filter.mpr ⟨hr, ?_⟩, rfl⟩)
  simpa using ht

theorem largestSnapshot_le {c : UsageCategory} {m : Int} (h0 : 0 ≤ m)
    (h : ∀ r ∈ db.reports, r.usageRecordId = t → r.snapshot c ≤ m) :
    db.largestSnapshot t c ≤ m := by
  refine mark_le h0 fun x hx => ?_
  obtain ⟨r, hr, rfl⟩ := List.mem_map.mp hx
  obtain ⟨hr, ht⟩ := List.mem_filter.mp hr
  exact h r hr (by simpa using ht)

/-- Rows with the reports of another one, and maybe more, have its snapshots. -/
theorem largestSnapshot_mono {db' : BillingDb} (h : db.reports ⊆ db'.reports) (t : DateTime)
    (c : UsageCategory) : db.largestSnapshot t c ≤ db'.largestSnapshot t c :=
  largestSnapshot_le (largestSnapshot_nonneg c) fun _ hr ht => le_largestSnapshot (h hr) ht c

end BillingDb

namespace OverageRun
open BillingDb

/-- No stored counter of a pay-as-you-go record is above both the allowance and the largest
reserved snapshot. -/
def Secured (db : BillingDb) (origin : DateTime → Option Incurred) (t : DateTime) : Prop :=
  ∀ u o, db.usage t = some u → origin t = some o → (getPlanConfig o.plan).payAsYouGo = true →
    ∀ c, u.count c ≤ max (o.plan.base c) (db.largestSnapshot t c)

/-- The Stripe subscription the stored row names. -/
def storedId (db : BillingDb) : Option String := db.subscription.bind (·.stripeSubscriptionId)

/-- A record is closed: it is billed, or the stored row no longer names the Stripe
subscription it was incurred under. -/
def Closed (db : BillingDb) (origin : DateTime → Option Incurred) (t : DateTime) : Prop :=
  (∃ u, db.usage t = some u ∧ u.billed = true) ∨
    ∃ o x, origin t = some o ∧ o.subscriptionId = some x ∧ storedId db ≠ some x

/-! ## The books behind the rows -/

/-- What the rows and the notes keep: exactly the records are noted; a report is of a
record, priced by its plan, and closes it if it names a closing invoice; and no watermark
is above the reserved snapshots. -/
structure Books (db : BillingDb) (origin : DateTime → Option Incurred) : Prop where
  noted : ∀ t, (db.usage t).isSome = (origin t).isSome
  filed : ∀ r ∈ db.reports, (db.usage r.usageRecordId).isSome
  priced : ∀ r ∈ db.reports, ∀ o, origin r.usageRecordId = some o → r.pricing.base = o.plan.base
  closing : ∀ r ∈ db.reports, r.closingInvoiceId ≠ none → ∀ u,
    db.usage r.usageRecordId = some u → u.billed = true
  reported : ∀ t u c, db.usage t = some u → u.reported c ≤ db.largestSnapshot t c

/-- The current period's record is of the stored subscription. -/
def Current (db : BillingDb) (origin : DateTime → Option Incurred) : Prop :=
  ∀ sub, db.subscription = some sub → origin sub.currentPeriodStart = some sub.incurs

/-- A change of the rows under which the records outside `T` keep their counters and
flag, new ones are empty and open, and no record or snapshot is lost. -/
structure Evolves (T : Set DateTime) (db db' : BillingDb) : Prop where
  rows : ∀ t ∉ T, ∀ u', db'.usage t = some u' →
    (∃ u, db.usage t = some u ∧ u'.count = u.count ∧ u'.billed = u.billed) ∨
      (db.usage t = none ∧ (∀ c, u'.count c = 0) ∧ u'.billed = false)
  kept : ∀ t, (db.usage t).isSome → (db'.usage t).isSome
  snapshots : ∀ t c, db.largestSnapshot t c ≤ db'.largestSnapshot t c

variable {db db' : BillingDb} {origin : DateTime → Option Incurred} {t : DateTime}
  {o : Incurred} {T : Set DateTime}

theorem Evolves.of_eq (T : Set DateTime) (husage : db'.usage = db.usage)
    (hreports : db'.reports = db.reports) : Evolves T db db' where
  rows := fun t _ u' hu' => Or.inl ⟨u', husage ▸ hu', rfl, rfl⟩
  kept := fun t ht => by rw [husage]; exact ht
  snapshots := fun t c => largestSnapshot_mono (by rw [hreports]; exact fun _ hr => hr) t c

theorem Evolves.trans {a b c : BillingDb} (h₁ : Evolves T a b) (h₂ : Evolves T b c) :
    Evolves T a c where
  rows := by
    intro t ht u' hu'
    rcases h₂.rows t ht u' hu' with ⟨u, hu, hcount, hbilled⟩ | ⟨hnone, hzero, hopen⟩
    · rcases h₁.rows t ht u hu with ⟨v, hv, hcount', hbilled'⟩ | ⟨hnone, hzero, hopen⟩
      · exact Or.inl ⟨v, hv, hcount.trans hcount', hbilled.trans hbilled'⟩
      · exact Or.inr ⟨hnone, fun c => hcount ▸ hzero c, hbilled.trans hopen⟩
    · refine Or.inr ⟨Option.isNone_iff_eq_none.mp ?_, hzero, hopen⟩
      by_contra hsome
      have := h₁.kept t (by simpa [Option.isSome_iff_ne_none] using hsome)
      rw [hnone] at this
      cases this
  kept := fun t ht => h₂.kept t (h₁.kept t ht)
  snapshots := fun t c => le_trans (h₁.snapshots t c) (h₂.snapshots t c)

/-- Writing one row evolves the rows if it is in `T`, keeps its counters and flag, or is
new, empty and open. -/
theorem evolves_putUsage {u : UsageRecord}
    (h : u.periodStart ∈ T ∨
      (∃ v, db.usage u.periodStart = some v ∧ u.count = v.count ∧ u.billed = v.billed) ∨
      (db.usage u.periodStart = none ∧ (∀ c, u.count c = 0) ∧ u.billed = false)) :
    Evolves T db (db.putUsage u) where
  rows := by
    intro t ht u' hu'
    by_cases htu : t = u.periodStart
    · subst htu
      rw [putUsage_usage, Function.update_self] at hu'
      cases hu'
      rcases h with hT | hsame | hnew
      · exact absurd hT ht
      · exact Or.inl hsame
      · exact Or.inr hnew
    · rw [putUsage_usage, Function.update_of_ne htu] at hu'
      exact Or.inl ⟨u', hu', rfl, rfl⟩
  kept := by
    intro t ht
    by_cases htu : t = u.periodStart
    · rw [htu, putUsage_usage, Function.update_self]
      rfl
    · rw [putUsage_usage, Function.update_of_ne htu]
      exact ht
  snapshots := fun t c => le_refl _

theorem evolves_addReport (T : Set DateTime) (db : BillingDb) (r : BillingReport) :
    Evolves T db (db.addReport r) where
  rows := fun _ _ u' hu' => Or.inl ⟨u', hu', rfl, rfl⟩
  kept := fun _ ht => ht
  snapshots := fun t c => largestSnapshot_mono (List.subset_append_left _ _) t c

/-! ### Notes -/

theorem noteOrigin_of_some (db : BillingDb) {o' : Incurred} (h : origin t = some o') :
    noteOrigin o db origin t = some o' := by
  unfold noteOrigin
  rw [h]
  exact ite_self _

theorem noteOrigin_of_none (h : origin t = none) (hr : (db.usage t).isSome) :
    noteOrigin o db origin t = some o := by
  unfold noteOrigin
  rw [if_pos hr, h]
  rfl

theorem isSome_noteOrigin (hnoted : ∀ t, (db.usage t).isSome = (origin t).isSome)
    (hkept : ∀ t, (db.usage t).isSome → (db'.usage t).isSome) (t : DateTime) :
    (db'.usage t).isSome = (noteOrigin o db' origin t).isSome := by
  unfold noteOrigin
  by_cases hr : (db'.usage t).isSome
  · rw [if_pos hr, hr]
    rfl
  · rw [if_neg hr, ← hnoted t]
    have hold : (db.usage t).isSome = false := by
      rw [Bool.eq_false_iff]
      exact fun hsome => hr (hkept t hsome)
    rw [hold]
    simpa using hr

/-- Notes taken twice under one subscription are taken once. -/
theorem noteOrigin_noteOrigin (hkept : ∀ t, (db.usage t).isSome → (db'.usage t).isSome) :
    noteOrigin o db' (noteOrigin o db origin) = noteOrigin o db' origin := by
  funext t
  unfold noteOrigin
  by_cases hr : (db.usage t).isSome
  · rw [if_pos (hkept t hr), if_pos (hkept t hr), if_pos hr]
    rfl
  · simp only [if_neg hr]

/-- Notes of rows whose records are all noted change nothing. -/
theorem noteOrigin_eq_self (hnoted : ∀ t, (db.usage t).isSome = (origin t).isSome) :
    noteOrigin o db origin = origin := by
  funext t
  cases ho : origin t with
  | some o' => exact noteOrigin_of_some db ho
  | none =>
    have hr := hnoted t
    rw [ho] at hr
    unfold noteOrigin
    rw [hr, ho]
    rfl

/-! ### What each write keeps -/

theorem Books.of_eq (h : Books db origin) (husage : db'.usage = db.usage)
    (hreports : db'.reports = db.reports) : Books db' origin := by
  obtain ⟨h₁, h₂, h₃, h₄, h₅⟩ := h
  have hsnap : ∀ t c, db'.largestSnapshot t c = db.largestSnapshot t c := by
    intro t c
    unfold largestSnapshot
    rw [hreports]
  refine ⟨by rw [husage]; exact h₁, by rw [husage, hreports]; exact h₂,
    by rw [hreports]; exact h₃, by rw [husage, hreports]; exact h₄, fun t u c hu => ?_⟩
  rw [hsnap]
  exact h₅ t u c (husage ▸ hu)

/-- Writing one row keeps the books if it reopens nothing and raises no watermark. -/
theorem Books.putUsage {u : UsageRecord} (h : Books db origin)
    (hold : ∀ v, db.usage u.periodStart = some v →
      (v.billed = true → u.billed = true) ∧ u.reported = v.reported)
    (hnew : db.usage u.periodStart = none → ∀ c, u.reported c = 0) (o : Incurred) :
    Books (db.putUsage u) (noteOrigin o (db.putUsage u) origin) := by
  have hev : Evolves {u.periodStart} db (db.putUsage u) :=
    evolves_putUsage (Or.inl (Set.mem_singleton _))
  refine ⟨isSome_noteOrigin h.noted hev.kept, fun r hr => hev.kept _ (h.filed r hr),
    fun r hr o' ho' => ?_, fun r hr hcl v hv => ?_, fun t v c hv => ?_⟩
  · have hsome := h.noted r.usageRecordId ▸ h.filed r hr
    obtain ⟨o₁, ho₁⟩ := Option.isSome_iff_exists.mp hsome
    rw [noteOrigin_of_some _ ho₁] at ho'
    cases ho'
    exact h.priced r hr _ ho₁
  · by_cases ht : r.usageRecordId = u.periodStart
    · rw [putUsage_usage, ht, Function.update_self] at hv
      cases hv
      obtain ⟨v, hv⟩ := Option.isSome_iff_exists.mp (h.filed r hr)
      exact (hold v (ht ▸ hv)).1 (h.closing r hr hcl v hv)
    · rw [putUsage_usage, Function.update_of_ne ht] at hv
      exact h.closing r hr hcl v hv
  · change v.reported c ≤ db.largestSnapshot t c
    by_cases ht : t = u.periodStart
    · rw [putUsage_usage, ht, Function.update_self] at hv
      cases hv
      cases hu : db.usage u.periodStart with
      | none =>
        rw [hnew hu c]
        exact largestSnapshot_nonneg c
      | some v =>
        rw [(hold v hu).2, ht]
        exact h.reported _ v c hu
    · rw [putUsage_usage, Function.update_of_ne ht] at hv
      exact h.reported t v c hv

theorem Books.addReport {r : BillingReport} (h : Books db origin)
    (hfiled : (db.usage r.usageRecordId).isSome)
    (hpriced : ∀ o, origin r.usageRecordId = some o → r.pricing.base = o.plan.base)
    (hclosing : r.closingInvoiceId ≠ none → ∀ u, db.usage r.usageRecordId = some u →
      u.billed = true) : Books (db.addReport r) origin := by
  have hmem : ∀ q ∈ (db.addReport r).reports, q ∈ db.reports ∨ q = r := by
    intro q hq
    simpa using hq
  refine ⟨h.noted, fun q hq => ?_, fun q hq => ?_, fun q hq => ?_, fun t u c hu => ?_⟩
  · rcases hmem q hq with hq | rfl
    · exact h.filed q hq
    · exact hfiled
  · rcases hmem q hq with hq | rfl
    · exact h.priced q hq
    · exact hpriced
  · rcases hmem q hq with hq | rfl
    · exact h.closing q hq
    · exact hclosing
  · exact le_trans (h.reported t u c hu) ((evolves_addReport ∅ db r).snapshots t c)

/-- A secured record that the rows leave alone stays secured. -/
theorem Secured.evolves (h : Secured db origin t)
    (hnoted : ∀ t, (db.usage t).isSome = (origin t).isSome) (hev : Evolves T db db')
    (ht : t ∉ T) : Secured db' (noteOrigin o db' origin) t := by
  intro u' o' hu' ho' hpaid c
  rcases hev.rows t ht u' hu' with ⟨u, hu, hcount, -⟩ | ⟨-, hzero, -⟩
  · have hsome : (origin t).isSome := by rw [← hnoted t, hu]; rfl
    obtain ⟨o₁, ho₁⟩ := Option.isSome_iff_exists.mp hsome
    obtain rfl : o₁ = o' := Option.some.inj ((noteOrigin_of_some db' ho₁).symm.trans ho')
    rw [hcount]
    exact le_trans (h u o₁ hu ho₁ hpaid c) (max_le_max_left _ (hev.snapshots t c))
  · rw [hzero c]
    exact le_trans (SubscriptionPlan.base_nonneg _ c) (le_max_left _ _)

/-! ### Staging -/

theorem stagePricing_base {a : StageArgs} (h : Books db origin) (ho : origin t = some o)
    (hplan : a.sub.plan = o.plan) :
    (stagePricing a.sub (byCreation (db.reports.filter (fun r => r.usageRecordId = t)))).base =
      o.plan.base := by
  unfold stagePricing
  split
  next r hr =>
    have hmem := mem_byCreation.mp (List.mem_of_mem_head? hr)
    obtain ⟨hr, ht⟩ := List.mem_filter.mp hmem
    have hrt : r.usageRecordId = t := by simpa using ht
    exact h.priced r hr o (hrt ▸ ho)
  · rw [hplan]

theorem Books.stage {a : StageArgs} (h : Books db origin) (hstage : db.stage t a = .ok db')
    (hplan : ∀ o, origin t = some o → a.sub.plan = o.plan)
    (hclosing : a.closingInvoiceId ≠ none → ∀ u, db.usage t = some u → u.billed = true) :
    Books db' origin := by
  rcases stage_cases hstage with rfl | ⟨u, customer, hu, rfl⟩
  · exact h
  · have hkey : u.periodStart = t := db.usage_keyed t u hu
    refine h.addReport ?_ ?_ ?_
    · change (db.usage u.periodStart).isSome
      rw [hkey, hu]
      rfl
    · change ∀ o, origin u.periodStart = some o → _
      rw [hkey]
      exact fun o ho => stagePricing_base h ho (hplan o ho)
    · change a.closingInvoiceId ≠ none → ∀ v, db.usage u.periodStart = some v → _
      rw [hkey]
      exact hclosing

/-- A counter of which nothing is due is within the allowance or already reserved. -/
theorem count_le_of_stageRequest_none {usage : UsageRecord} {previous : List BillingReport}
    {a : StageArgs} {customer : String} {c : UsageCategory}
    (h : stageRequest usage previous a customer c = none) :
    usage.count c ≤ max ((stagePricing a.sub previous).base c) (reservedCount usage previous c) := by
  unfold stageRequest at h
  simp only at h
  split at h
  next hunits =>
    simp only [overageUnits, snapshotCount] at hunits
    omega
  · cases h

/-- What counts as reserved is a snapshot of the record, where its watermark is. -/
theorem reservedCount_le_of {u : UsageRecord} {c : UsageCategory}
    (h : u.reported c ≤ db.largestSnapshot t c) :
    reservedCount u (byCreation (db.reports.filter (fun r => r.usageRecordId = t))) c ≤
      db.largestSnapshot t c := by
  refine mark_le h fun x hx => ?_
  obtain ⟨r, hr, rfl⟩ := List.mem_map.mp hx
  obtain ⟨hr, ht⟩ := List.mem_filter.mp (mem_byCreation.mp hr)
  exact le_largestSnapshot hr (by simpa using ht) c

theorem reservedCount_le (h : Books db origin) {u : UsageRecord} (hu : db.usage t = some u)
    (c : UsageCategory) :
    reservedCount u (byCreation (db.reports.filter (fun r => r.usageRecordId = t))) c ≤
      db.largestSnapshot t c := reservedCount_le_of (h.reported t u c hu)

/-- **Staging secures an open record.** -/
theorem stage_secures {a : StageArgs} {u : UsageRecord} (h : Books db origin)
    (hstage : db.stage t a = .ok db') (hu : db.usage t = some u) (hopen : u.billed = false)
    (ho : origin t = some o) (hplan : a.sub.plan = o.plan) : Secured db' origin t := by
  intro u' o' hu' ho' hpaid c
  cases Option.some.inj (ho.symm.trans ho')
  have hkey : u.periodStart = t := db.usage_keyed t u hu
  generalize hprev : byCreation (db.reports.filter (fun r => r.usageRecordId = t)) = previous
  have hbase : (stagePricing a.sub previous).base = o.plan.base :=
    hprev ▸ stagePricing_base h ho hplan
  have hres : reservedCount u previous c ≤ db.largestSnapshot t c :=
    hprev ▸ reservedCount_le h hu c
  -- no report of an open record names a closing invoice
  have hnone : ∀ i, previous.find? (fun r => r.closingInvoiceId = some i) = none := by
    intro i
    refine List.find?_eq_none.mpr fun r hr hri => ?_
    rw [← hprev] at hr
    obtain ⟨hr, ht⟩ := List.mem_filter.mp (mem_byCreation.mp hr)
    have hrt : r.usageRecordId = t := by simpa using ht
    have hri : r.closingInvoiceId = some i := by simpa using hri
    have hbilled := h.closing r hr (by rw [hri]; exact Option.some_ne_none i) u (hrt ▸ hu)
    rw [hopen] at hbilled
    cases hbilled
  have hfind : ((truthy a.closingInvoiceId).bind fun i =>
      previous.find? (fun r => r.closingInvoiceId = some i)) = none := by
    cases truthy a.closingInvoiceId with
    | none => rfl
    | some i => exact hnone i
  simp only [stage, hu, stageOn, hopen, hprev, hfind, hplan, hpaid, Bool.false_and, Bool.not_true,
    Bool.false_eq_true, if_false] at hstage
  cases hcust : truthy (stageCustomer a.sub previous) with
  | none => rw [hcust] at hstage; cases hstage
  | some customer =>
    rw [hcust] at hstage
    by_cases hdue : (stageReport u previous a customer).status ≠ .pending ∧
        truthy a.closingInvoiceId = none
    · simp only [if_pos hdue] at hstage
      cases hstage
      cases Option.some.inj (hu.symm.trans hu')
      have hrequest := stageRequest_none_of_status hdue.1 c
      have hle := count_le_of_stageRequest_none hrequest
      rw [hbase] at hle
      exact le_trans hle (max_le_max_left _ hres)
    · simp only [if_neg hdue] at hstage
      cases hstage
      cases Option.some.inj (hu.symm.trans hu')
      have hmem : stageReport u previous a customer ∈
          (db.addReport (stageReport u previous a customer)).reports :=
        List.mem_append_right _ (List.mem_singleton_self _)
      exact le_trans (le_max_right _ _) (le_trans (le_largestSnapshot hmem hkey c) (le_max_right _ _))

/-! ### Delivery -/

/-- What a delivery leaves of a report. -/
structure Same (r r' : BillingReport) : Prop where
  usageRecordId : r'.usageRecordId = r.usageRecordId
  snapshot : r'.snapshot = r.snapshot
  pricing : r'.pricing = r.pricing
  closingInvoiceId : r'.closingInvoiceId = r.closingInvoiceId

theorem Same.refl (r : BillingReport) : Same r r := ⟨rfl, rfl, rfl, rfl⟩

theorem Same.trans {a b c : BillingReport} (h : Same a b) (h' : Same b c) : Same a c :=
  ⟨h'.1.trans h.1, h'.2.trans h.2, h'.3.trans h.3, h'.4.trans h.4⟩

theorem same_write (r : BillingReport) (w : DeliveryWrite) : Same r (r.write w) := by
  unfold BillingReport.write
  split
  · split
    · exact .refl r
    · split
      · exact .refl r
      · split
        · split
          · exact ⟨rfl, rfl, rfl, rfl⟩
          · exact .refl r
        · split
          · exact .refl r
          · exact ⟨rfl, rfl, rfl, rfl⟩
        · split
          · exact .refl r
          · exact ⟨rfl, rfl, rfl, rfl⟩
        · exact ⟨rfl, rfl, rfl, rfl⟩
  · exact .refl r

theorem same_writes (r : BillingReport) (ws : List DeliveryWrite) :
    Same r (ws.foldl BillingReport.write r) := by
  induction ws generalizing r with
  | nil => exact .refl r
  | cons w ws ih => exact (same_write r w).trans (ih _)

/-- **Everything a delivery does to the rows**: reports keep what they reserve, and one
record's watermarks may move up to the snapshots of its reports. -/
theorem deliver_cases (db : BillingDb) (id : UUID) (ws : List DeliveryWrite) :
    (∃ g, (∀ r, Same r (g r)) ∧ (db.deliver id ws).reports = db.reports.map g) ∧
      ∀ t, (db.deliver id ws).usage t = db.usage t ∨
        ∃ u reps, db.usage t = some u ∧ (db.deliver id ws).usage t = some (finishUsage u reps id) ∧
          ∀ r ∈ reps, ∃ q ∈ db.reports, q.usageRecordId = t ∧ r.snapshot = q.snapshot := by
  have hwrite : ∀ r, Same r (if r.id = id then ws.foldl BillingReport.write r else r) := by
    intro r
    split
    · exact same_writes r ws
    · exact .refl r
  have hconfirm : ∀ r : BillingReport, Same r (if r.id = id then r.confirm else r) := by
    intro r
    split
    · exact ⟨rfl, rfl, rfl, rfl⟩
    · exact .refl r
  unfold deliver
  simp only
  split
  · exact ⟨⟨_, hwrite, rfl⟩, fun t => Or.inl rfl⟩
  next r _ =>
    split
    · exact ⟨⟨_, hwrite, rfl⟩, fun t => Or.inl rfl⟩
    next usage hu =>
      have hkey : usage.periodStart = r.usageRecordId := db.usage_keyed _ _ hu
      refine ⟨⟨_, fun q => (hwrite q).trans (hconfirm _), List.map_map ..⟩, fun t => ?_⟩
      · by_cases ht : t = r.usageRecordId
        · refine Or.inr ⟨usage, (db.reports.map (fun q => if q.id = id then
            ws.foldl BillingReport.write q else q)).filter
              (fun q => q.usageRecordId = r.usageRecordId), ht ▸ hu, ?_, ?_⟩
          · change Function.update db.usage usage.periodStart _ t = _
            rw [hkey, ht, Function.update_self]
          · intro q hq
            obtain ⟨hq, hqt⟩ := List.mem_filter.mp hq
            obtain ⟨q₀, hq₀, rfl⟩ := List.mem_map.mp hq
            refine ⟨q₀, hq₀, ?_, (hwrite q₀).snapshot⟩
            rw [← (hwrite q₀).usageRecordId, ht]
            simpa using hqt
        · left
          change Function.update db.usage usage.periodStart _ t = _
          rw [hkey, Function.update_of_ne ht]

theorem deliver_snapshots (db : BillingDb) (id : UUID) (ws : List DeliveryWrite) (t : DateTime)
    (c : UsageCategory) : db.largestSnapshot t c ≤ (db.deliver id ws).largestSnapshot t c := by
  obtain ⟨g, hg, hreports⟩ := (deliver_cases db id ws).1
  refine largestSnapshot_le (largestSnapshot_nonneg c) fun r hr ht => ?_
  rw [← (hg r).snapshot]
  refine le_largestSnapshot ?_ ((hg r).usageRecordId.trans ht) c
  rw [hreports]
  exact List.mem_map_of_mem hr

theorem evolves_deliver (T : Set DateTime) (db : BillingDb) (id : UUID) (ws : List DeliveryWrite) :
    Evolves T db (db.deliver id ws) where
  rows := by
    intro t _ u' hu'
    rcases (deliver_cases db id ws).2 t with he | ⟨u, reps, hu, he, -⟩
    · exact Or.inl ⟨u', he ▸ hu', rfl, rfl⟩
    · rw [he] at hu'
      cases hu'
      exact Or.inl ⟨u, hu, rfl, rfl⟩
  kept := by
    intro t ht
    rcases (deliver_cases db id ws).2 t with he | ⟨u, reps, -, he, -⟩
    · rw [he]; exact ht
    · rw [he]; rfl
  snapshots := deliver_snapshots db id ws

theorem deliver_isSome (db : BillingDb) (id : UUID) (ws : List DeliveryWrite) (t : DateTime) :
    ((db.deliver id ws).usage t).isSome = (db.usage t).isSome := by
  rcases (deliver_cases db id ws).2 t with he | ⟨u, reps, hu, he, -⟩
  · rw [he]
  · rw [he, hu]; rfl

/-- Watermarks move up to the reserved snapshots at most. -/
theorem deliver_reported_le
    (h : ∀ t u c, db.usage t = some u → u.reported c ≤ db.largestSnapshot t c) (id : UUID)
    (ws : List DeliveryWrite) (t : DateTime) (u : UsageRecord) (c : UsageCategory)
    (hu : (db.deliver id ws).usage t = some u) :
    u.reported c ≤ (db.deliver id ws).largestSnapshot t c := by
  refine le_trans ?_ (deliver_snapshots db id ws t c)
  rcases (deliver_cases db id ws).2 t with he | ⟨v, reps, hv, he, hreps⟩
  · exact h t u c (he ▸ hu)
  · rw [he] at hu
    cases hu
    refine le_trans (finishUsage_reported_le v reps id c) (mark_le (h t v c hv) fun x hx => ?_)
    obtain ⟨r, hr, rfl⟩ := List.mem_map.mp hx
    obtain ⟨q, hq, hqt, hsnap⟩ := hreps r hr
    rw [hsnap]
    exact le_largestSnapshot hq hqt c

theorem Books.deliver (h : Books db origin) (id : UUID) (ws : List DeliveryWrite) :
    Books (db.deliver id ws) origin := by
  obtain ⟨g, hg, hreports⟩ := (deliver_cases db id ws).1
  have hmem : ∀ r ∈ (db.deliver id ws).reports, ∃ q ∈ db.reports, Same q r := by
    intro r hr
    rw [hreports] at hr
    obtain ⟨q, hq, rfl⟩ := List.mem_map.mp hr
    exact ⟨q, hq, hg q⟩
  refine ⟨fun t => (deliver_isSome db id ws t).trans (h.noted t), fun r hr => ?_,
    fun r hr o ho => ?_, fun r hr hcl u hu => ?_, fun t u c hu => ?_⟩
  · obtain ⟨q, hq, hsame⟩ := hmem r hr
    rw [deliver_isSome, hsame.usageRecordId]
    exact h.filed q hq
  · obtain ⟨q, hq, hsame⟩ := hmem r hr
    rw [hsame.pricing]
    exact h.priced q hq o (hsame.usageRecordId ▸ ho)
  · obtain ⟨q, hq, hsame⟩ := hmem r hr
    rw [hsame.usageRecordId] at hu
    rw [hsame.closingInvoiceId] at hcl
    rcases (evolves_deliver ∅ db id ws).rows _ (Set.notMem_empty _) u hu with
      ⟨v, hv, -, hbilled⟩ | ⟨hnone, -⟩
    · rw [hbilled]
      exact h.closing q hq hcl v hv
    · have := h.filed q hq
      rw [hnone] at this
      cases this
  · exact deliver_reported_le h.reported id ws t u c hu

/-! ## The commits -/

section commits
variable {orgId : UUID} {st st' : UsageState} {sub : Subscription} {start stop : DateTime}

theorem noteOrigin_congr (h : ∀ t, (db'.usage t).isSome = (db.usage t).isSome) :
    noteOrigin o db' origin = noteOrigin o db origin := by
  funext t
  unfold noteOrigin
  rw [h t]

/-- A sync evolves the rows but for the record it syncs, whose flag it keeps. -/
theorem sync_spec (orgId : UUID) (st : UsageState) (start stop : DateTime) (o : Incurred)
    (h : Books st.db origin) :
    let st' := st.syncToDatabase orgId (some (start, stop))
    Evolves {start} st.db st'.db ∧ Books st'.db (noteOrigin o st'.db origin) ∧
      st'.db.subscription = st.db.subscription ∧
      ((∀ u, st.db.usage start = some u → u.billed = false) →
        ∀ u, st'.db.usage start = some u → u.billed = false) := by
  simp only [UsageState.syncToDatabase_some]
  split
  · refine ⟨.of_eq _ rfl rfl, ?_, rfl, fun hopen => hopen⟩
    rw [noteOrigin_eq_self h.noted]
    exact h
  · have hkey : ((st.db.usage start).getD (UsageRecord.fresh orgId start stop)).periodStart = start := by
      cases hu : st.db.usage start with
      | none => rfl
      | some u => exact st.db.usage_keyed start u hu
    refine ⟨evolves_putUsage (Or.inl hkey), h.putUsage ?_ ?_ o, rfl, fun hopen u hu => ?_⟩
    · intro v hv
      change st.db.usage ((st.db.usage start).getD _).periodStart = some v at hv
      rw [hkey] at hv
      simp [hv]
    · intro hnone c
      change st.db.usage ((st.db.usage start).getD _).periodStart = none at hnone
      rw [hkey] at hnone
      simp [hnone, UsageRecord.fresh]
    · simp only [upsertUsageCounters_usage, if_true] at hu
      cases hu
      cases hv : st.db.usage start with
      | none => rfl
      | some v => exact hopen v hv

/-- **The first commit of the reporter and of a deletion**, on an open record of their
subscription, keeps the books and secures the record. -/
theorem reserve_spec {ctx : HandlerCtx} (h : Books st.db origin)
    (horigin : origin sub.currentPeriodStart = some sub.incurs)
    (hopen : ∀ u, st.db.usage sub.currentPeriodStart = some u → u.billed = false)
    (hok : st.reserve orgId sub ctx = .ok st') :
    Evolves {sub.currentPeriodStart} st.db st'.db ∧
      Books st'.db (noteOrigin sub.incurs st'.db origin) ∧
      st'.db.subscription = st.db.subscription ∧
      (∀ u, st'.db.usage sub.currentPeriodStart = some u → u.billed = false) ∧
      (sub.stripeCustomerId ≠ none →
        Secured st'.db (noteOrigin sub.incurs st'.db origin) sub.currentPeriodStart) := by
  -- the sync comes first: it keeps the books, notes the period and leaves an open record open
  obtain ⟨hev, hbooks, hsub, hopen'⟩ :=
    sync_spec orgId st sub.currentPeriodStart sub.currentPeriodEnd sub.incurs h
  unfold UsageState.reserve at hok
  simp only at hok
  split at hok
  -- without a customer nothing is staged
  next hcust =>
    cases hok
    exact ⟨hev, hbooks, hsub, hopen' hopen, fun hne => absurd hcust hne⟩
  · split at hok
    · cases hok
    next db hstage =>
      cases hok
      obtain ⟨husage, hsub'⟩ := stage_frame hstage
      have hnote : noteOrigin sub.incurs db origin = noteOrigin sub.incurs
          (st.syncToDatabase orgId (some (sub.currentPeriodStart, sub.currentPeriodEnd))).db
            origin := noteOrigin_congr fun t => by rw [husage]
      have hstart : noteOrigin sub.incurs (st.syncToDatabase orgId
          (some (sub.currentPeriodStart, sub.currentPeriodEnd))).db origin sub.currentPeriodStart =
            some sub.incurs := noteOrigin_of_some _ horigin
      -- the period is noted under the subscription, so the sync left a record of it
      have hrecord := hbooks.noted sub.currentPeriodStart
      rw [hstart] at hrecord
      obtain ⟨u, hu⟩ := Option.isSome_iff_exists.mp hrecord
      refine ⟨hev.trans ?_, ?_, hsub'.trans hsub, ?_, fun _ => ?_⟩
      · rcases stage_cases hstage with he | ⟨v, customer, -, he⟩
        · rw [he]
          exact .of_eq _ rfl rfl
        · rw [he]
          exact evolves_addReport _ _ _
      · change Books db (noteOrigin sub.incurs db origin)
        rw [hnote]
        refine hbooks.stage hstage (fun o ho => ?_) (fun hcl => absurd rfl hcl)
        rw [hstart] at ho
        cases ho
        rfl
      · change ∀ u, db.usage sub.currentPeriodStart = some u → u.billed = false
        rw [husage]
        exact hopen' hopen
      · change Secured db (noteOrigin sub.incurs db origin) sub.currentPeriodStart
        rw [hnote]
        exact stage_secures hbooks hstage hu (hopen' hopen u hu) hstart rfl

theorem markBilled_isSome (db : BillingDb) (a t : DateTime) (i : Option String) :
    ((db.markBilled a i).usage t).isSome = (db.usage t).isSome := by
  rw [markBilled_usage]
  split
  next h => rw [h]; exact Option.isSome_map
  · rfl

theorem evolves_markBilled (db : BillingDb) {a : DateTime} (ha : a ∈ T) (i : Option String) :
    Evolves T db (db.markBilled a i) := by
  unfold markBilled
  split
  · exact .of_eq _ rfl rfl
  next u hu =>
    refine evolves_putUsage (Or.inl ?_)
    change u.periodStart ∈ T
    rw [db.usage_keyed a u hu]
    exact ha

theorem Books.markBilled (h : Books db origin) (a : DateTime) (i : Option String) :
    Books (db.markBilled a i) origin := by
  have hnote : noteOrigin ⟨none, .hobby⟩ (db.markBilled a i) origin = origin := by
    refine noteOrigin_eq_self fun t => ?_
    rw [markBilled_isSome]
    exact h.noted t
  rw [← hnote]
  unfold BillingDb.markBilled
  split
  · rw [noteOrigin_eq_self h.noted]
    exact h
  next u hu =>
    have hkey : u.periodStart = a := db.usage_keyed a u hu
    refine h.putUsage (fun v hv => ?_) (fun hnone => ?_) _
    · change db.usage u.periodStart = some v at hv
      rw [hkey, hu] at hv
      cases hv
      exact ⟨fun _ => rfl, rfl⟩
    · change db.usage u.periodStart = none at hnone
      rw [hkey, hu] at hnone
      cases hnone

/-- Closing a record changes no counter. -/
theorem Secured.markBilled (h : Secured db origin t) (a : DateTime) (i : Option String) :
    Secured (db.markBilled a i) origin t := by
  intro u' o hu' ho hpaid c
  have hsnap : (db.markBilled a i).largestSnapshot t c = db.largestSnapshot t c := by
    unfold largestSnapshot
    rw [markBilled_reports]
  rw [hsnap]
  rw [markBilled_usage] at hu'
  split at hu'
  next hta =>
    obtain ⟨u, hu, rfl⟩ := Option.map_eq_some_iff.mp hu'
    exact h u o (hta ▸ hu) ho hpaid c
  · exact h u' o hu' ho hpaid c

theorem markBilled_addReport (db : BillingDb) (r : BillingReport) (a : DateTime)
    (i : Option String) : (db.addReport r).markBilled a i = (db.markBilled a i).addReport r := by
  unfold BillingDb.markBilled
  rw [addReport_usage]
  cases db.usage a <;> rfl

/-- **The close of a renewal**, on an open record of its subscription, keeps the books and
secures the record it closes. -/
theorem closePaid_spec {obj : InvoiceEvent} {ctx : HandlerCtx} (h : Books st.db origin)
    (hown : origin start = none ∨ origin start = some sub.incurs)
    (hopen : ∀ u, st.db.usage start = some u → u.billed = false)
    (hok : st.closePaid orgId sub obj ctx start stop = .ok st') :
    Evolves {start} st.db st'.db ∧ Books st'.db (noteOrigin sub.incurs st'.db origin) ∧
      st'.db.subscription = st.db.subscription ∧
      Secured st'.db (noteOrigin sub.incurs st'.db origin) start := by
  obtain ⟨hev, hbooks, hsub, hopen'⟩ := sync_spec orgId st start stop sub.incurs h
  unfold UsageState.closePaid at hok
  generalize st.syncToDatabase orgId (some (start, stop)) = st₁ at hev hbooks hsub hopen' hok
  simp only [getCurrentUsageRecord] at hok
  split at hok
  · cases hok
  next u hu =>
    split at hok
    · cases hok
    next db hstage =>
      cases hok
      obtain ⟨husage, hsub'⟩ := stage_frame hstage
      have hstart : noteOrigin sub.incurs st₁.db origin start = some sub.incurs := by
        rcases hown with hnone | hsome
        · exact noteOrigin_of_none hnone (by rw [hu]; rfl)
        · exact noteOrigin_of_some _ hsome
      have hplan : ∀ o, noteOrigin sub.incurs st₁.db origin start = some o → sub.plan = o.plan := by
        intro o ho
        rw [hstart] at ho
        cases ho
        rfl
      -- neither staging nor the mark changes which periods have a record
      have hnote : noteOrigin sub.incurs (db.markBilled start (some obj.id)) origin =
          noteOrigin sub.incurs st₁.db origin := by
        refine noteOrigin_congr fun t => ?_
        rw [markBilled_isSome, husage]
      -- the report staged on the still open record is what secures it once it is billed
      have hsec := stage_secures hbooks hstage hu (hopen' hopen u hu) hstart rfl
      have hcases := stage_cases hstage
      refine ⟨hev.trans (Evolves.trans ?_ (evolves_markBilled db (Set.mem_singleton start) _)),
        ?_, ?_, ?_⟩
      · rcases hcases with he | ⟨v, customer, -, he⟩
        · rw [he]
          exact .of_eq _ rfl rfl
        · rw [he]
          exact evolves_addReport _ _ _
      · change Books (db.markBilled start (some obj.id)) (noteOrigin sub.incurs _ origin)
        rw [hnote]
        rcases hcases with he | ⟨v, customer, hv, he⟩
        · rw [he]
          exact hbooks.markBilled start _
        · have hkey : v.periodStart = start := st₁.db.usage_keyed start v hv
          -- the report is staged before the mark; the books are kept by the two in the other order
          rw [he, markBilled_addReport]
          refine (hbooks.markBilled start _).addReport ?_ ?_ ?_
          · change ((st₁.db.markBilled start _).usage v.periodStart).isSome
            rw [markBilled_isSome, hkey, hv]
            rfl
          · change ∀ o, noteOrigin sub.incurs st₁.db origin v.periodStart = some o → _
            rw [hkey]
            exact fun o ho => stagePricing_base hbooks ho (hplan o ho)
          · intro _ u' hu'
            change (st₁.db.markBilled start _).usage v.periodStart = some u' at hu'
            rw [hkey, markBilled_usage, if_pos rfl, hv] at hu'
            cases hu'
            rfl
      · change (db.markBilled start _).subscription = _
        rw [markBilled_subscription]
        exact hsub'.trans hsub
      · change Secured (db.markBilled start (some obj.id)) (noteOrigin sub.incurs _ origin) start
        rw [hnote]
        exact hsec.markBilled start _

/-- A period that is new, or already of `o`. -/
theorem own_noteOrigin (db : BillingDb) (h : origin t = none ∨ origin t = some o) :
    noteOrigin o db origin t = none ∨ noteOrigin o db origin t = some o := by
  rcases h with hnone | hsome
  · unfold noteOrigin
    rw [hnone]
    split
    · exact Or.inr rfl
    · exact Or.inl rfl
  · exact Or.inr (noteOrigin_of_some db hsome)

/-- Opening a record keeps the books and notes its period. -/
theorem open_spec (T : Set DateTime) (orgId : UUID) (a b : DateTime) (h : Books db origin)
    (hown : origin a = none ∨ origin a = some o) :
    let db' := db.getOrCreateUsageRecord orgId a b
    Evolves T db db' ∧ Books db' (noteOrigin o db' origin) ∧ noteOrigin o db' origin a = some o := by
  intro db'
  have hrecord : (db'.usage a).isSome := by
    simp [db', getOrCreateUsageRecord_usage]
  refine ⟨?_, ?_, ?_⟩
  · unfold db' getOrCreateUsageRecord
    split
    · exact .of_eq _ rfl rfl
    next hnone => exact evolves_putUsage (Or.inr (Or.inr ⟨hnone, fun _ => rfl, rfl⟩))
  · unfold db' getOrCreateUsageRecord
    split
    · rw [noteOrigin_eq_self h.noted]
      exact h
    next hnone =>
      refine h.putUsage (fun v hv => ?_) (fun _ _ => rfl) o
      have hv : db.usage a = some v := hv
      rw [hnone] at hv
      cases hv
  · rcases hown with hnone | hsome
    · exact noteOrigin_of_none hnone hrecord
    · exact noteOrigin_of_some _ hsome

/-- **The end of a renewal** opens the new period under the subscription. -/
theorem renew_spec (T : Set DateTime) (ctx : HandlerCtx) {a : DateTime} (b : DateTime)
    (h : Books st.db origin) (hcur : Current st.db origin) (hrow : st.db.subscription = some sub)
    (hown : origin a = none ∨ origin a = some sub.incurs) :
    let st' := st.renew orgId ctx a b
    Evolves T st.db st'.db ∧ Books st'.db (noteOrigin sub.incurs st'.db origin) ∧
      Current st'.db (noteOrigin sub.incurs st'.db origin) ∧ storedId st'.db = storedId st.db := by
  intro st'
  have hadv : Books (st.db.advancePeriod a b) origin := h.of_eq rfl rfl
  obtain ⟨hev, hbooks, hnew⟩ := open_spec T orgId a b hadv hown
  have husage : st'.db.usage = ((st.db.advancePeriod a b).getOrCreateUsageRecord orgId a b).usage := by
    simp [st', UsageState.renew]
  have hreports :
      st'.db.reports = ((st.db.advancePeriod a b).getOrCreateUsageRecord orgId a b).reports := by
    simp [st', UsageState.renew]
  have hsub : st'.db.subscription =
      some { Subscription.advance a b sub with status := .active } := by
    rw [(UsageState.renew_frame ctx a b).2, hrow]
    rfl
  have hnote : noteOrigin sub.incurs st'.db origin = noteOrigin sub.incurs
      ((st.db.advancePeriod a b).getOrCreateUsageRecord orgId a b) origin :=
    noteOrigin_congr fun t => by rw [husage]
  refine ⟨?_, ?_, ?_, ?_⟩
  · have hmove : Evolves T st.db (st.db.advancePeriod a b) := .of_eq T rfl rfl
    exact hmove.trans (hev.trans (.of_eq T husage hreports))
  · rw [hnote]
    exact hbooks.of_eq husage hreports
  · intro sub' hsub'
    rw [hsub] at hsub'
    cases hsub'
    rw [hnote]
    change noteOrigin sub.incurs _ origin (Subscription.advance a b sub).currentPeriodStart =
      some (Subscription.advance a b sub).incurs
    unfold Subscription.advance
    -- either the period moved to the one just opened, or a late one left the row where it was
    split
    · exact hnew
    · exact noteOrigin_of_some _ (hcur sub hrow)
  · unfold storedId
    rw [hsub, hrow]
    change (Subscription.advance a b sub).stripeSubscriptionId = _
    unfold Subscription.advance
    split <;> rfl

/-- **A checkout** opens its period under the subscription it names. -/
theorem checkout_spec (T : Set DateTime) (obj : CheckoutEvent) (ctx : HandlerCtx)
    (h : Books st.db origin)
    (hown : origin (DateTime.fromTimestamp obj.periodStart) = none ∨
      origin (DateTime.fromTimestamp obj.periodStart) = some ⟨some obj.subscriptionId, obj.plan⟩) :
    let o : Incurred := ⟨some obj.subscriptionId, obj.plan⟩
    let st' := st.handleCheckoutCompleted orgId obj ctx
    Evolves T st.db st'.db ∧ Books st'.db (noteOrigin o st'.db origin) ∧
      Current st'.db (noteOrigin o st'.db origin) ∧ storedId st'.db = some obj.subscriptionId := by
  intro o st'
  have hput : Books (st.db.putSubscription (st.checkoutSubscription orgId obj)) origin :=
    h.of_eq rfl rfl
  obtain ⟨hev, hbooks, hnew⟩ := open_spec T orgId (DateTime.fromTimestamp obj.periodStart)
    (DateTime.fromTimestamp obj.periodEnd) hput hown
  have hdb : st'.db = (st.db.putSubscription
      (st.checkoutSubscription orgId obj)).getOrCreateUsageRecord orgId
        (DateTime.fromTimestamp obj.periodStart) (DateTime.fromTimestamp obj.periodEnd) := by
    simp [st', UsageState.handleCheckoutCompleted]
  -- a new row and an overwritten one name the same subscription and period
  have hrow : (st.checkoutSubscription orgId obj).incurs = o ∧
      (st.checkoutSubscription orgId obj).currentPeriodStart =
        DateTime.fromTimestamp obj.periodStart := by
    unfold UsageState.checkoutSubscription
    split <;> exact ⟨rfl, rfl⟩
  have hmove : Evolves T st.db (st.db.putSubscription (st.checkoutSubscription orgId obj)) :=
    .of_eq T rfl rfl
  rw [hdb]
  refine ⟨hmove.trans hev, hbooks, ?_, ?_⟩
  · intro sub' hsub'
    rw [getOrCreateUsageRecord_subscription, putSubscription_subscription] at hsub'
    cases hsub'
    rw [hrow.1, hrow.2]
    exact hnew
  · unfold storedId
    rw [getOrCreateUsageRecord_subscription, putSubscription_subscription]
    exact congrArg Incurred.subscriptionId hrow.1

/-- Creating a record keeps the books and notes its period. -/
theorem create_spec (T : Set DateTime) {a b : DateTime} (h : Books db origin) (o : Incurred)
    (hok : db.createUsageRecord orgId a b = .ok db') :
    Evolves T db db' ∧ Books db' (noteOrigin o db' origin) ∧ noteOrigin o db' origin a = some o ∧
      db'.subscription = db.subscription := by
  obtain ⟨hnone, rfl⟩ := createUsageRecord_ok hok
  have hcreate : db.getOrCreateUsageRecord orgId a b = db.putUsage (.fresh orgId a b) := by
    simp [getOrCreateUsageRecord, hnone]
  have hown : origin a = none := by
    have := h.noted a
    rw [hnone] at this
    simpa using this.symm
  obtain ⟨hev, hbooks, hnew⟩ := open_spec T orgId a b h (Or.inl hown : _ ∨ origin a = some o)
  rw [hcreate] at hev hbooks hnew
  exact ⟨hev, hbooks, hnew, rfl⟩

/-- **The creation of an organization** opens its first period under no subscription. -/
theorem createOrganization_spec (T : Set DateTime) {plan : SubscriptionPlan} {now : DateTime}
    (h : Books st.db origin) (hok : st.createOrganization orgId plan now = .ok st') :
    Evolves T st.db st'.db ∧ Books st'.db (noteOrigin ⟨none, plan⟩ st'.db origin) ∧
      Current st'.db (noteOrigin ⟨none, plan⟩ st'.db origin) ∧ storedId st.db = none := by
  unfold UsageState.createOrganization at hok
  split at hok
  · cases hok
  next hnone =>
    simp only at hok
    split at hok
    · cases hok
    next db hcreate =>
      cases hok
      obtain ⟨hev, hbooks, hnew, -⟩ := create_spec T h ⟨none, plan⟩ hcreate
      refine ⟨hev.trans (.of_eq T rfl rfl), hbooks.of_eq rfl rfl, ?_, ?_⟩
      · intro sub' hsub'
        cases hsub'
        exact hnew
      · unfold storedId
        rw [hnone]
        rfl

/-- **The downgrade of a deletion** closes at most the old record and opens a period under
no subscription. -/
theorem downgrade_spec {ctx : HandlerCtx} (h : Books st.db origin)
    (hrow : st.db.subscription = some sub) (hok : st.downgrade orgId sub ctx = .ok st')
    (hT : (getPlanConfig sub.plan).payAsYouGo ∧ sub.stripeCustomerId.isSome →
      sub.currentPeriodStart ∈ T) :
    Evolves T st.db st'.db ∧
      Books st'.db (noteOrigin ⟨none, .hobby⟩ st'.db origin) ∧
      Current st'.db (noteOrigin ⟨none, .hobby⟩ st'.db origin) ∧ storedId st'.db = none ∧
      (Secured st.db origin sub.currentPeriodStart →
        Secured st'.db (noteOrigin ⟨none, .hobby⟩ st'.db origin) sub.currentPeriodStart) := by
  have hclose : Evolves T st.db (st.closeOldPeriod sub) ∧
      Books (st.closeOldPeriod sub) origin ∧
      (st.closeOldPeriod sub).subscription = st.db.subscription ∧
      (Secured st.db origin sub.currentPeriodStart →
        Secured (st.closeOldPeriod sub) origin sub.currentPeriodStart) := by
    obtain hsame | ⟨hpaid, hclosed⟩ := UsageState.closeOldPeriod_cases st sub
    · rw [hsame]
      exact ⟨.of_eq _ rfl rfl, h, rfl, fun hsec => hsec⟩
    · rw [hclosed]
      exact ⟨evolves_markBilled _ (hT hpaid) _, h.markBilled _ _, markBilled_subscription _ _ _,
        fun hsec => hsec.markBilled _ _⟩
  obtain ⟨hev, hbooks, hsub, hsec⟩ := hclose
  unfold UsageState.downgrade at hok
  generalize hdb₁ : st.closeOldPeriod sub = db₁ at hok hev hbooks hsub hsec
  simp only at hok
  split at hok
  · cases hok
  next db hcreate =>
    cases hok
    have hmove : Evolves T db₁
        (db₁.updateSubscription (UsageState.downgraded ctx.now)) := .of_eq _ rfl rfl
    have hbooks₁ : Books (db₁.updateSubscription (UsageState.downgraded ctx.now)) origin :=
      hbooks.of_eq rfl rfl
    obtain ⟨hev', hbooks', hnew, hsub'⟩ :=
      create_spec T hbooks₁ ⟨none, .hobby⟩ hcreate
    have hstored : db.subscription = some (UsageState.downgraded ctx.now sub) := by
      rw [hsub', updateSubscription_subscription, hsub, hrow]
      rfl
    refine ⟨hev.trans (hmove.trans hev'), hbooks', ?_, ?_, fun hold => ?_⟩
    · intro sub' hcur
      rw [show db.subscription = some sub' from hcur] at hstored
      cases hstored
      exact hnew
    · change db.subscription.bind _ = none
      rw [hstored]
      rfl
    · -- creating the new record leaves the old one alone
      have hev₀ := (create_spec ∅ hbooks₁ ⟨none, .hobby⟩ hcreate).1
      have hsec₁ : Secured (db₁.updateSubscription (UsageState.downgraded ctx.now)) origin
          sub.currentPeriodStart := hsec hold
      exact hsec₁.evolves hbooks₁.noted hev₀ (Set.notMem_empty _)

end commits

end OverageRun
end PandaProbe
