import PandaProbe.BillingHandlers
import PandaProbe.Watermark

/-! # The desk and the handlers of the subscription row

The desk of staging and delivering, next to the handlers that write the subscription row, and
to the close of a period, which stages under a closing invoice and marks the record billed in
one transaction.

Once all reports of a record are reported its watermark stands, above the allowances, where
the snapshots stand (`Level`).  An empty closure marker is reported from the start, and its
snapshot may lie above the watermark, but only within the allowances.  `InOrder` has this of
every record, next to what staging and the handlers check: a report has a customer and the
pricing of a plan that bills by usage, and so has a subscription that bills by usage.  Only a
billed record has a closing report (`ClosedBilled`).
-/
namespace PandaProbe
open HighWater BillingReport

/-! ## The machine -/

/-- What can happen next. -/
inductive BillingAct
  | desk (a : DeskAct)
  | close (periodStart : DateTime) (a : StageArgs)
  | createOrganization (orgId : UUID) (authEnabled : Bool) (now : DateTime)
  | checkout (orgId : UUID) (obj : CheckoutEvent) (ctx : HandlerCtx)
  | updated (obj : SubscriptionEvent) (ctx : HandlerCtx)
  | paymentFailed (obj : InvoiceEvent) (ctx : HandlerCtx)
  | renew (orgId : UUID) (newStart newEnd : DateTime) (ctx : HandlerCtx)
  | downgrade (orgId : UUID) (now : DateTime)

namespace ReportDesk
variable (s : ReportDesk)

/-- The rows, for a handler that reads neither the cache nor Redis. -/
def rows : UsageState := ⟨s.db, none, ⟨fun _ _ => none, fun _ => none⟩⟩

/-- The end of the transaction of `handle_invoice_paid`: stage under the closing invoice and
mark the record billed, or nothing. -/
def close (periodStart : DateTime) (a : StageArgs) : Option ReportDesk :=
  match s.usageLock periodStart with
  | some _ => none
  | none =>
    if s.db.reports.any (fun r => r.id = a.reportId) then some s
    else
      match s.db.stage periodStart a with
      | .error _ => some s
      | .ok db => some { s with db := db.markBilled periodStart a.closingInvoiceId }

/-- The rows after a handler that raises or writes them. -/
def handled (r : Except BillingError BillingDb) : ReportDesk :=
  match r with
  | .error _ => s
  | .ok db => { s with db := db }

/-- The new organizations of the dashboard are on the default plan; without authentication
they are on the development plan. -/
def newPlan (authEnabled : Bool) : SubscriptionPlan := if authEnabled then .hobby else .development

/-- The end of `handle_subscription_deleted`, for a subscription that is Stripe's. -/
def downgrade (orgId : UUID) (now : DateTime) : Except BillingError BillingDb :=
  (s.db.updateSubscription (UsageState.downgraded now)).createUsageRecord orgId now
    (now + DateTime.days 30)

/-- One step.  Only `close` names a closing invoice, and Stripe names the customer of every
checkout it completes. -/
def stepBilling : BillingAct → Option ReportDesk
  | .desk a => if a.asks.any (fun p => (truthy p.2.closingInvoiceId).isSome) then none else s.step a
  | .close t a => s.close t a
  | .createOrganization orgId authEnabled now =>
      some (s.handled ((s.rows.createOrganization orgId (newPlan authEnabled) now).map (·.db)))
  | .checkout orgId obj ctx =>
      if (truthy obj.customer).isSome then
        some (s.handled (.ok (s.rows.handleCheckoutCompleted orgId obj ctx).db))
      else none
  | .updated obj ctx => some (s.handled (.ok (s.rows.handleSubscriptionUpdated obj ctx).db))
  | .paymentFailed obj ctx => some (s.handled (.ok (s.rows.handleInvoicePaymentFailed obj ctx).db))
  | .renew orgId newStart newEnd ctx =>
      some (s.handled (.ok (s.rows.renew orgId ctx newStart newEnd).db))
  | .downgrade orgId now => some (s.handled (s.downgrade orgId now))

end ReportDesk

/-! ## The subscription row -/

/-- A subscription that is billed by usage, or Stripe's, has a customer. -/
def Subscription.Chargeable (sub : Subscription) : Prop :=
  (getPlanConfig sub.plan).payAsYouGo = true ∨ sub.stripeSubscriptionId.isSome = true →
    (truthy sub.stripeCustomerId).isSome = true

theorem Subscription.Chargeable.of_eq {sub sub' : Subscription} (h : sub.Chargeable)
    (hplan : sub'.plan = sub.plan) (hid : sub'.stripeSubscriptionId = sub.stripeSubscriptionId)
    (hcustomer : sub'.stripeCustomerId = sub.stripeCustomerId) : sub'.Chargeable := by
  unfold Subscription.Chargeable
  rw [hplan, hid, hcustomer]
  exact h

theorem advance_plan (a b : DateTime) (sub : Subscription) :
    (BillingDb.Subscription.advance a b sub).plan = sub.plan ∧
      (BillingDb.Subscription.advance a b sub).stripeSubscriptionId = sub.stripeSubscriptionId ∧
      (BillingDb.Subscription.advance a b sub).stripeCustomerId = sub.stripeCustomerId := by
  unfold BillingDb.Subscription.advance
  split <;> exact ⟨rfl, rfl, rfl⟩

theorem Subscription.Chargeable.advance {sub : Subscription} (h : sub.Chargeable)
    (a b : DateTime) : (BillingDb.Subscription.advance a b sub).Chargeable :=
  h.of_eq (advance_plan a b sub).1 (advance_plan a b sub).2.1 (advance_plan a b sub).2.2

/-- The stored subscription, if there is one, is chargeable. -/
def BillingDb.Chargeable (db : BillingDb) : Prop := ∀ sub, db.subscription = some sub → sub.Chargeable

/-- What the handlers of the subscription row leave alone: the reports, and every usage row
there was. -/
structure Grows (db db' : BillingDb) : Prop where
  reports : db'.reports = db.reports
  usage : ∀ t u, db.usage t = some u → db'.usage t = some u

section Handlers
variable {db db' : BillingDb} {orgId : UUID} {ctx : HandlerCtx}

theorem Grows.refl (db : BillingDb) : Grows db db := ⟨rfl, fun _ _ h => h⟩

theorem Grows.trans {db'' : BillingDb} (h : Grows db db') (h' : Grows db' db'') : Grows db db'' :=
  ⟨h'.reports.trans h.reports, fun t u hu => h'.usage t u (h.usage t u hu)⟩

theorem grows_putSubscription (db : BillingDb) (sub : Subscription) :
    Grows db (db.putSubscription sub) := ⟨rfl, fun _ _ h => h⟩

theorem grows_updateSubscription (db : BillingDb) (f : Subscription → Subscription) :
    Grows db (db.updateSubscription f) := ⟨rfl, fun _ _ h => h⟩

theorem grows_getOrCreate (db : BillingDb) (o : UUID) (a b : DateTime) :
    Grows db (db.getOrCreateUsageRecord o a b) := by
  refine ⟨by simp, fun t u hu => ?_⟩
  rw [BillingDb.getOrCreateUsageRecord_usage]
  split
  next ht =>
    subst ht
    rw [hu]
    rfl
  · exact hu

theorem grows_createUsageRecord {o : UUID} {a b : DateTime}
    (h : db.createUsageRecord o a b = .ok db') :
    Grows db db' ∧ db'.subscription = db.subscription := by
  obtain ⟨hnone, rfl⟩ := BillingDb.createUsageRecord_ok h
  refine ⟨⟨rfl, fun t u hu => ?_⟩, rfl⟩
  have hne : t ≠ a := by
    rintro rfl
    rw [hnone] at hu
    cases hu
  exact (Function.update_of_ne hne ..).trans hu

theorem BillingDb.Chargeable.map (h : db.Chargeable) {f : Subscription → Subscription}
    (hf : ∀ sub, sub.Chargeable → (f sub).Chargeable) (hsub : db'.subscription = db.subscription.map f) :
    db'.Chargeable := by
  intro sub' hsub'
  rw [hsub] at hsub'
  obtain ⟨sub, hsub, rfl⟩ := Option.map_eq_some_iff.mp hsub'
  exact hf sub (h sub hsub)

theorem createOrganization_grows {st : UsageState} {plan : SubscriptionPlan} {now : DateTime}
    {st' : UsageState} (hplan : (getPlanConfig plan).payAsYouGo = false)
    (h : st.createOrganization orgId plan now = .ok st') :
    Grows st.db st'.db ∧ st'.db.Chargeable := by
  unfold UsageState.createOrganization at h
  split at h
  · cases h
  · simp only at h
    split at h
    · cases h
    next db hdb =>
      cases h
      refine ⟨(grows_createUsageRecord hdb).1.trans (grows_putSubscription db _), fun sub hsub => ?_⟩
      cases hsub
      rintro (hpay | hid)
      · rw [hplan] at hpay
        cases hpay
      · cases hid

theorem handleCheckoutCompleted_grows (st : UsageState) {obj : CheckoutEvent}
    (hcustomer : (truthy obj.customer).isSome = true) :
    Grows st.db (st.handleCheckoutCompleted orgId obj ctx).db ∧
      (st.handleCheckoutCompleted orgId obj ctx).db.Chargeable := by
  unfold UsageState.handleCheckoutCompleted
  simp only [UsageState.warmSubCache_db]
  refine ⟨(grows_putSubscription st.db _).trans (grows_getOrCreate _ _ _ _), fun sub hsub _ => ?_⟩
  rw [BillingDb.getOrCreateUsageRecord_subscription] at hsub
  cases hsub
  unfold UsageState.checkoutSubscription
  split <;> exact hcustomer

theorem handleSubscriptionUpdated_grows (st : UsageState) {obj : SubscriptionEvent} (h : st.db.Chargeable) :
    Grows st.db (st.handleSubscriptionUpdated obj ctx).db ∧
      (st.handleSubscriptionUpdated obj ctx).db.Chargeable := by
  unfold UsageState.handleSubscriptionUpdated
  split
  · exact ⟨.refl _, h⟩
  next found hfound =>
    -- the row that is written has the id of the event, hence a customer
    obtain ⟨hrow, hid⟩ := BillingDb.getSubscriptionByStripeSubscription_eq_some _ |>.mp hfound
    have hcustomer := h found hrow (Or.inr (by rw [hid]; rfl))
    simp only [UsageState.warmSubCache_db]
    constructor
    · split
      · exact (grows_updateSubscription _ _).trans (grows_updateSubscription _ _)
      · exact grows_updateSubscription _ _
    · intro sub hsub _
      split at hsub <;> simp only [BillingDb.updateSubscription_subscription,
        BillingDb.advancePeriod_subscription, hrow, Option.map_some, Option.some.injEq] at hsub <;>
        subst hsub
      · show (truthy (BillingDb.Subscription.advance _ _ found).stripeCustomerId).isSome = true
        rw [(advance_plan _ _ found).2.2]
        exact hcustomer
      · exact hcustomer

theorem handleInvoicePaymentFailed_grows (st : UsageState) {obj : InvoiceEvent} (h : st.db.Chargeable) :
    Grows st.db (st.handleInvoicePaymentFailed obj ctx).db ∧
      (st.handleInvoicePaymentFailed obj ctx).db.Chargeable := by
  unfold UsageState.handleInvoicePaymentFailed
  split
  · exact ⟨.refl _, h⟩
  · simp only [UsageState.warmSubCache_db]
    refine ⟨grows_updateSubscription _ _, ?_⟩
    exact h.map (f := fun s => { s with status := .pastDue }) (fun _ hsub => hsub.of_eq rfl rfl rfl)
      rfl

theorem renew_grows (st : UsageState) {a b : DateTime} (h : st.db.Chargeable) :
    Grows st.db (st.renew orgId ctx a b).db ∧ (st.renew orgId ctx a b).db.Chargeable := by
  unfold UsageState.renew
  simp only [UsageState.warmSubCache_db]
  have hadvance : (st.db.advancePeriod a b).Chargeable := h.map (fun _ hsub => hsub.advance a b) rfl
  refine ⟨((grows_updateSubscription _ _).trans (grows_getOrCreate (st.db.advancePeriod a b) orgId a
    b)).trans (grows_updateSubscription _ _), ?_⟩
  refine hadvance.map (f := fun s => { s with status := .active })
    (fun _ hsub => hsub.of_eq rfl rfl rfl) ?_
  simp

theorem ReportDesk.downgrade_grows {s : ReportDesk} {now : DateTime}
    (h : s.downgrade orgId now = .ok db') : Grows s.db db' ∧ db'.Chargeable := by
  obtain ⟨hgrows, hsub⟩ := grows_createUsageRecord h
  refine ⟨(grows_updateSubscription _ _).trans hgrows, fun sub hsub' => ?_⟩
  rw [hsub] at hsub'
  obtain ⟨old, -, rfl⟩ := Option.map_eq_some_iff.mp hsub'
  rintro (hpay | hid)
  · cases hpay
  · cases hid

end Handlers

/-! ## What one record keeps -/

namespace ReportDesk
variable {s s' : ReportDesk} {t : DateTime} {u u' : UsageRecord} {r0 : UsageCategory → Int}
variable {asked : Option (DateTime × StageArgs)}

/-- Once all reports of a record are reported, its watermark is level with the mark of its
snapshots in what lies above the allowances. -/
def Level (r0 : UsageCategory → Int) (u : UsageRecord) (reports : List BillingReport) : Prop :=
  (∀ r ∈ reports, r.status = .reported) → ∀ r ∈ reports, ∀ c,
    overage (r.pricing.base c) (u.reported c) =
      overage (r.pricing.base c) (topMark r0 c (reports.map BillingReport.reservation))

/-- Every report has a customer, and the pricing of a plan that bills by usage. -/
def Priced (r : BillingReport) : Prop :=
  (truthy (some r.stripeCustomerId)).isSome = true ∧
    ∃ plan, (getPlanConfig plan).payAsYouGo = true ∧ r.pricing = ⟨overageUnitPrice, plan.base⟩

/-- A delivery that confirms nothing keeps a record level. -/
theorem Level.moved (h : Level r0 u (s.db.reportsFor t)) (ht : Tended s) {r row : BillingReport}
    (hmem : r ∈ s.db.reports) (hadv : Advances r row)
    (hstatus : row.status = .reported → r.status = .reported) (hdb : s'.db = s.db.putReport row) :
    Level r0 u (s'.db.reportsFor t) := by
  have hreports := ht.reportsFor_putReport hmem hadv t
  have hres := ht.reservations_putReport hmem hadv t
  intro hall q' hq' c
  rw [hdb] at hall hq' ⊢
  rw [hres]
  rw [hreports] at hall hq'
  have hbefore : ∀ q ∈ s.db.reportsFor t, q.status = .reported := by
    intro q hq
    have hq'' := hall _ (List.mem_map_of_mem hq)
    split at hq''
    next he =>
      obtain rfl : q = r := ht.unique hmem (mem_reportsFor.mp hq).1 (he.trans hadv.id)
      exact hstatus hq''
    · exact hq''
  obtain ⟨q, hq, rfl⟩ := List.mem_map.mp hq'
  have hpricing := congrArg Reservation.pricing
    (ht.advances_replace hmem hadv (mem_reportsFor.mp hq).1).reservation
  simp only [BillingReport.reservation] at hpricing
  rw [hpricing]
  exact h hbefore q hq c

/-- **An empty marker keeps a record level**: it has no units above the allowances. -/
theorem Level.staged (h : Level r0 u (s.db.reportsFor t)) (hs : Sound t r0 u s) {a : StageArgs}
    {customer : String} :
    Level r0 u (s.db.reportsFor t ++
      [stageReport u (byCreation (s.db.reportsFor t)) a customer]) := by
  have hext : Extends r0 ((s.db.reportsFor t).map BillingReport.reservation)
      (stageReport u (byCreation (s.db.reportsFor t)) a customer).reservation :=
    @UsageLedger.extends_of_stage r0 ⟨u, s.db.reportsFor t⟩ hs.reserved a customer
  generalize hx : stageReport u (byCreation (s.db.reportsFor t)) a customer = x at hext ⊢
  have hsame : ∀ y ∈ s.db.reportsFor t, y.pricing = x.pricing :=
    fun y hy => (hext.pricing y.reservation (List.mem_map_of_mem hy)).symm
  intro hall r hr c
  have hbase : r.pricing = x.pricing := by
    rcases List.mem_append.mp hr with hr | hr
    · exact hsame r hr
    · rw [List.mem_singleton.mp hr]
  have hnone : x.requests c = none := by
    have hstatus := hall x (by simp)
    rw [← hx] at hstatus ⊢
    exact stageRequest_none_of_status (by rw [hstatus]; nofun) c
  -- so nothing of what the snapshot adds to the mark is above the allowance
  have hflat : overage (x.pricing.base c) (x.snapshot c) = overage (x.pricing.base c)
      (topMark r0 c ((s.db.reportsFor t).map BillingReport.reservation)) := by
    have hspan : x.reservation.span c = none := by
      show (x.requests c).map ChargeRequest.span = none
      rw [hnone]
      rfl
    rw [hext.span c] at hspan
    have hmono := overage_mono (x.pricing.base c) (hext.mark_le c)
    by_contra hne
    rw [if_neg] at hspan
    · cases hspan
    · rw [overageUnits_eq]
      exact fun hle => hne (le_antisymm (sub_nonpos.mp hle) hmono)
  rw [List.map_append, List.map_singleton, hext.topMark_concat c, hbase]
  refine Eq.trans ?_ hflat.symm
  rcases List.eq_nil_or_concat' (s.db.reportsFor t) with hnil | ⟨l, y, hl⟩
  · -- the first report of a record: the watermark is where it started
    have hle := hs.reserved.reported_le c
    rw [hnil] at hle ⊢
    rw [show u.reported c = topMark r0 c ([].map BillingReport.reservation) from
      le_antisymm hle (hs.reserved.start_le c)]
  · have hy : y ∈ s.db.reportsFor t := by rw [hl]; simp
    rw [← hsame y hy]
    exact h (fun q hq => hall q (List.mem_append_left _ hq)) y hy c

/-- **A step keeps a record level.** -/
theorem Level.step (h : Level r0 u (s.db.reportsFor t)) (hs : Sound t r0 u s)
    (hs' : Sound t r0 u' s') (hstep : DeskStep asked s s') : Level r0 u' (s'.db.reportsFor t) := by
  -- a step that leaves the rows alone
  have hsame : s'.db = s.db → Level r0 u' (s'.db.reportsFor t) := by
    intro hdb
    obtain rfl : u' = u := Option.some.inj (hs'.usage.symm.trans (hdb ▸ hs.usage))
    rw [hdb]
    exact h
  cases hstep with
  | quiet hdb => exact hsame hdb
  | staged x a usage customer hfree husage hdb =>
    have hu : u' = u := by
      have hu' := hs'.usage
      rw [hdb] at hu'
      exact Option.some.inj (hu'.symm.trans hs.usage)
    rw [hu, hdb, reportsFor_addReport]
    have hkey : usage.periodStart = x := s.db.usage_keyed x usage husage
    split
    next hx =>
      obtain rfl : x = t := hkey.symm.trans hx
      obtain rfl : usage = u := Option.some.inj (husage.symm.trans hs.usage)
      exact h.staged hs
    · rwa [List.append_nil]
  | counted x hfree hreports husage =>
    obtain ⟨v, hv, hrep, -⟩ := husage t u hs.usage
    obtain rfl : u' = v := Option.some.inj (hs'.usage.symm.trans hv)
    unfold BillingDb.reportsFor Level
    rw [hreports, hrep]
    exact h
  | moved r row hmem hadv hstatus hdb =>
    have hu' := hs'.usage
    rw [hdb] at hu'
    obtain rfl : u = u' := Option.some.inj (hs.usage.symm.trans hu')
    exact h.moved hs.tended hmem hadv hstatus hdb
  | read w report usage _ _ hdb => exact hsame hdb
  | finished w report usage read hwas hdb =>
    have hmem := (hs.tended.held w report (copy_of_reading hwas)).2
    have hadv := advances_confirm (hs.tended.pending_of_reading hwas).1
    by_cases ht : report.usageRecordId = t
    · -- its last open report is finished, so the watermark is at the mark
      intro hall r hr c
      rw [hs.finished_mark hwas hdb ht hall hs'.usage c]
      simp [topMark, BillingReport.reservation, Function.comp_def]
    · obtain ⟨husage, hreports⟩ := hs.finished_rows hwas hdb
      have hu : u' = u := by
        have hu' := hs'.usage
        rw [husage, if_neg (Ne.symm ht)] at hu'
        exact Option.some.inj (hu'.symm.trans hs.usage)
      rw [hu, hreports, hs.tended.reportsFor_putReport_of_ne hmem hadv ht]
      exact h
  | abandoned w report usage read _ hdb => exact hsame hdb

/-! ## What all records keep -/

/-- **What every run keeps**: every record is sound and level, every report has its record and
is priced, and only billed records have a closing report. -/
structure InOrder (s : ReportDesk) : Prop where
  tended : Tended s
  reads : ∀ w report usage read, (s.post w).reading = some (report, usage, read) →
    Reads s w report usage read
  recorded : ∀ r ∈ s.db.reports, ∃ u, s.db.usage r.usageRecordId = some u
  level : ∀ t u, s.db.usage t = some u →
    ∃ r0, Sound t r0 u s ∧ Level r0 u (s.db.reportsFor t)
  priced : ∀ r ∈ s.db.reports, Priced r
  chargeable : s.db.Chargeable

/-- Only a billed record has a closing report. -/
def ClosedBilled (db : BillingDb) : Prop :=
  ∀ r ∈ db.reports, (truthy r.closingInvoiceId).isSome = true →
    ∃ u, db.usage r.usageRecordId = some u ∧ u.billed = true

/-- The record of a period nothing was staged for. -/
theorem sound_of_unstaged (ht : Tended s) (hreads : ∀ w report usage read,
    (s.post w).reading = some (report, usage, read) → Reads s w report usage read)
    (hu : s.db.usage t = some u) (hnone : s.db.reportsFor t = []) :
    Sound t u.reported u s ∧ Level u.reported u (s.db.reportsFor t) := by
  rw [hnone]
  refine ⟨⟨ht, hreads, hu, ?_, ?_⟩, fun _ r hr => absurd hr List.not_mem_nil⟩
  · rw [hnone]
    exact Reserved.initial u.reported
  · rw [hnone]
    exact fun r hr => absurd hr List.not_mem_nil

/-- No record, no reports. -/
theorem reportsFor_eq_nil {db : BillingDb} {usage : DateTime → Option UsageRecord}
    (hrecorded : ∀ r ∈ db.reports, ∃ u, usage r.usageRecordId = some u) (hnone : usage t = none) :
    db.reportsFor t = [] := by
  refine List.eq_nil_iff_forall_not_mem.mpr fun r hr => ?_
  obtain ⟨hmem, rfl⟩ := mem_reportsFor.mp hr
  obtain ⟨u, hu⟩ := hrecorded r hmem
  rw [hnone] at hu
  cases hu

/-- Where the reports after a step come from. -/
theorem DeskStep.origin (h : Tended s) (hstep : DeskStep asked s s') {r' : BillingReport}
    (hr' : r' ∈ s'.db.reports) :
    (∃ r ∈ s.db.reports, Advances r r') ∨
      ∃ t a usage customer, asked = some (t, a) ∧ s.db.usage t = some usage ∧
        r' = stageReport usage (byCreation (s.db.reportsFor t)) a customer ∧
        stageOn usage (s.db.reportsFor t) a = .ok (.created r') := by
  -- one row moves on
  have hput : ∀ r row, r ∈ s.db.reports → Advances r row → r' ∈ (s.db.putReport row).reports →
      ∃ r ∈ s.db.reports, Advances r r' := by
    intro r row hmem hadv hput
    obtain ⟨q, hq, rfl⟩ := List.mem_map.mp hput
    exact ⟨q, hq, h.advances_replace hmem hadv hq⟩
  cases hstep with
  | quiet hdb => exact Or.inl ⟨r', hdb ▸ hr', .refl r'⟩
  | staged t a usage customer _ husage hdb _ _ hcreated hasked =>
    rw [hdb, BillingDb.addReport_reports] at hr'
    rcases List.mem_append.mp hr' with hr' | hr'
    · exact Or.inl ⟨r', hr', .refl r'⟩
    · obtain rfl := List.mem_singleton.mp hr'
      exact Or.inr ⟨t, a, usage, customer, hasked, husage, rfl, hcreated⟩
  | counted t _ hreports => exact Or.inl ⟨r', hreports ▸ hr', .refl r'⟩
  | moved r row hmem hadv _ hdb => exact Or.inl (hput r row hmem hadv (hdb ▸ hr'))
  | read w report usage _ _ hdb => exact Or.inl ⟨r', hdb ▸ hr', .refl r'⟩
  | finished w report usage read hwas hdb =>
    rw [hdb] at hr'
    exact Or.inl (hput report _ (h.held w report (copy_of_reading hwas)).2
      (advances_confirm (h.pending_of_reading hwas).1) hr')
  | abandoned w report usage read _ hdb => exact Or.inl ⟨r', hdb ▸ hr', .refl r'⟩

/-- Usage rows stay, and stay billed; the subscription row is nobody's at the desk. -/
theorem DeskStep.frame (h : InOrder s) (hstep : DeskStep asked s s') :
    (∀ t u, s.db.usage t = some u →
      ∃ u', s'.db.usage t = some u' ∧ (u.billed = true → u'.billed = true)) ∧
    s'.db.subscription = s.db.subscription := by
  have hsame : s'.db.usage = s.db.usage → ∀ t u, s.db.usage t = some u →
      ∃ u', s'.db.usage t = some u' ∧ (u.billed = true → u'.billed = true) :=
    fun hdb t u hu => ⟨u, by rw [hdb, hu], fun hb => hb⟩
  cases hstep with
  | quiet hdb => exact ⟨hsame (by rw [hdb]), by rw [hdb]⟩
  | staged x a usage customer _ _ hdb => exact ⟨hsame (by rw [hdb]; rfl), by rw [hdb]; rfl⟩
  | counted x _ _ husage _ _ hbilled hsub =>
    refine ⟨fun t u hu => ?_, hsub⟩
    obtain ⟨u', hu', -⟩ := husage t u hu
    exact ⟨u', hu', fun hb => hbilled t u hu hb u' hu'⟩
  | moved r row _ _ _ hdb => exact ⟨hsame (by rw [hdb]; rfl), by rw [hdb]; rfl⟩
  | read w report usage _ _ hdb => exact ⟨hsame (by rw [hdb]), by rw [hdb]⟩
  | finished w report usage read hwas hdb =>
    refine ⟨fun t u hu => ?_, by rw [hdb]; rfl⟩
    have hread := h.reads w report usage read hwas
    obtain ⟨r0, hsound, -⟩ := h.level t u hu
    obtain ⟨husage, -⟩ := hsound.finished_rows hwas hdb
    by_cases ht : t = report.usageRecordId
    · subst ht
      obtain rfl : usage = u := Option.some.inj (hread.usage.symm.trans hu)
      exact ⟨finishUsage usage read report.id, by rw [husage, if_pos rfl], fun hb => hb⟩
    · exact ⟨u, by rw [husage, if_neg ht, hu], fun hb => hb⟩
  | abandoned w report usage read _ hdb => exact ⟨hsame (by rw [hdb]), by rw [hdb]⟩

/-- A report that is stored is priced. -/
theorem priced_of_created (h : ∀ r ∈ s.db.reports, Priced r) {a : StageArgs} {r : BillingReport}
    {usage : UsageRecord} {customer : String}
    (hr : r = stageReport usage (byCreation (s.db.reportsFor t)) a customer)
    (hcreated : stageOn usage (s.db.reportsFor t) a = .ok (.created r)) : Priced r := by
  obtain ⟨hcustomer, hplan⟩ := stageOn_created_checks hcreated
  have hpricing : r.pricing = stagePricing a.sub (byCreation (s.db.reportsFor t)) := by rw [hr]; rfl
  constructor
  · -- what is kept of a truthy string is the string
    have htruthy := Option.eq_some_of_filter_eq_some hcustomer
    rw [htruthy] at hcustomer
    rw [hcustomer]
    rfl
  · rw [hpricing]
    cases hp : byCreation (s.db.reportsFor t) with
    | nil => exact ⟨a.sub.plan, hplan (by rw [hp]; rfl), rfl⟩
    | cons first rest =>
      have hfirst : first ∈ s.db.reportsFor t := by
        rw [← mem_byCreation, hp]
        exact List.mem_cons_self ..
      exact (h first (mem_reportsFor.mp hfirst).1).2

/-- **A step at the desk keeps everything in order.** -/
theorem InOrder.desk {a : DeskAct} (h : InOrder s) (hs : s.step a = some s') : InOrder s' := by
  obtain ⟨ht, hstep⟩ := h.tended.step hs
  obtain ⟨husage, hsub⟩ := hstep.frame h
  have hrecorded : ∀ r ∈ s'.db.reports, ∃ u, s.db.usage r.usageRecordId = some u := by
    intro r hr
    rcases hstep.origin h.tended hr with ⟨q, hq, hadv⟩ | ⟨t, a, usage, customer, -, hu, rfl, -⟩
    · rw [hadv.record]
      exact h.recorded q hq
    · rw [← s.db.usage_keyed t usage hu] at hu
      exact ⟨usage, hu⟩
  have hreads : ∀ w report usage read, (s'.post w).reading = some (report, usage, read) →
      Reads s' w report usage read := by
    intro w report usage read hr
    -- whoever reads, reads a record, and what is sound about that record covers all reads
    have hrow : ∃ t u, s.db.usage t = some u := by
      have hmem := (ht.held w report (copy_of_reading hr)).2
      exact ⟨_, hrecorded report hmem⟩
    obtain ⟨t, u, hu⟩ := hrow
    obtain ⟨r0, hsound, -⟩ := h.level t u hu
    obtain ⟨u', hsound', -⟩ := hsound.step hs
    exact hsound'.reads w report usage read hr
  refine ⟨ht, hreads, fun r hr => ?_, fun t u' hu' => ?_, fun r hr => ?_, ?_⟩
  · obtain ⟨u, hu⟩ := hrecorded r hr
    obtain ⟨u', hu', -⟩ := husage _ u hu
    exact ⟨u', hu'⟩
  · cases hu : s.db.usage t with
    | none =>
      exact ⟨u'.reported, sound_of_unstaged ht hreads hu' (reportsFor_eq_nil hrecorded hu)⟩
    | some u =>
      obtain ⟨r0, hsound, hlevel⟩ := h.level t u hu
      obtain ⟨v, hsound', -⟩ := hsound.step hs
      obtain rfl : v = u' := Option.some.inj (hsound'.usage.symm.trans hu')
      exact ⟨r0, hsound', hlevel.step hsound hsound' hstep⟩
  · rcases hstep.origin h.tended hr with ⟨q, hq, hadv⟩ | ⟨t, a, usage, customer, -, -, heq, hcr⟩
    · have hpricing := congrArg Reservation.pricing hadv.reservation
      simp only [BillingReport.reservation] at hpricing
      obtain ⟨hcustomer, hplan⟩ := h.priced q hq
      exact ⟨by rw [hadv.customer]; exact hcustomer, by rw [hpricing]; exact hplan⟩
    · exact priced_of_created h.priced heq hcr
  · intro sub hsub'
    rw [hsub] at hsub'
    exact h.chargeable sub hsub'

/-- A step that names no closing invoice. -/
theorem ClosedBilled.desk {a : DeskAct} (h : ClosedBilled s.db) (ho : InOrder s)
    (ha : ∀ t args, a.asks = some (t, args) → (truthy args.closingInvoiceId).isSome = false)
    (hs : s.step a = some s') : ClosedBilled s'.db := by
  obtain ⟨-, hstep⟩ := ho.tended.step hs
  obtain ⟨husage, -⟩ := hstep.frame ho
  intro r hr hclosing
  rcases hstep.origin ho.tended hr with ⟨q, hq, hadv⟩ | ⟨t, args, usage, customer, hasked, -, rfl, -⟩
  · obtain ⟨u, hu, hb⟩ := h q hq (by rw [← hadv.closing]; exact hclosing)
    obtain ⟨u', hu', hb'⟩ := husage _ u hu
    exact ⟨u', by rw [hadv.record]; exact hu', hb' hb⟩
  · have hno := ha t args hasked
    rw [show (truthy args.closingInvoiceId).isSome = true from hclosing] at hno
    cases hno

/-! ## The handlers and the close -/

/-- **A handler of the subscription row keeps everything in order.** -/
theorem InOrder.handled (h : InOrder s) {db : BillingDb} (hgrows : Grows s.db db)
    (hsub : db.Chargeable) : InOrder (s.handled (.ok db)) := by
  have hfor : ∀ t, (s.handled (.ok db)).db.reportsFor t = s.db.reportsFor t := by
    intro t
    show db.reports.filter _ = s.db.reports.filter _
    rw [hgrows.reports]
  have ht : Tended (s.handled (.ok db)) := h.tended.of_frame hgrows.reports rfl rfl
  have hreads : ∀ w report usage read,
      ((s.handled (.ok db)).post w).reading = some (report, usage, read) →
      Reads (s.handled (.ok db)) w report usage read := by
    intro w report usage read hr
    have hread := h.reads w report usage read hr
    refine hread.of_frame rfl ?_ (hfor _)
    rw [hread.usage]
    exact hgrows.usage _ _ hread.usage
  have hrecorded : ∀ r ∈ db.reports, ∃ u, s.db.usage r.usageRecordId = some u := by
    rw [hgrows.reports]
    exact h.recorded
  refine ⟨ht, hreads, fun r hr => ?_, fun t u' hu' => ?_, ?_, hsub⟩
  · obtain ⟨u, hu⟩ := hrecorded r hr
    exact ⟨u, hgrows.usage _ u hu⟩
  · cases hu : s.db.usage t with
    | none =>
      exact ⟨u'.reported, sound_of_unstaged ht hreads hu' (reportsFor_eq_nil hrecorded hu)⟩
    | some u =>
      obtain rfl : u' = u := Option.some.inj (hu'.symm.trans (hgrows.usage t u hu))
      obtain ⟨r0, hsound, hlevel⟩ := h.level t u' hu
      refine ⟨r0, ⟨ht, hreads, hu', ?_, ?_⟩, ?_⟩
      · rw [hfor]; exact hsound.reserved
      · rw [hfor]; exact hsound.unpassed
      · rw [hfor]; exact hlevel
  · show ∀ r ∈ db.reports, Priced r
    rw [hgrows.reports]
    exact h.priced

theorem ClosedBilled.grows {db db' : BillingDb} (h : ClosedBilled db) (hgrows : Grows db db') :
    ClosedBilled db' := by
  intro r hr hclosing
  rw [hgrows.reports] at hr
  obtain ⟨u, hu, hb⟩ := h r hr hclosing
  exact ⟨u, hgrows.usage _ u hu, hb⟩

/-- A close is nothing, or two steps at the desk. -/
theorem close_eq_some {a : StageArgs} (hs : s.close t a = some s') :
    s' = s ∨ ∃ s₁, s.step (.stage t a) = some s₁ ∧
      s₁.step (.markBilled t a.closingInvoiceId) = some s' := by
  unfold close at hs
  split at hs
  · cases hs
  next hfree =>
    split at hs
    · cases hs
      exact Or.inl rfl
    next hnew =>
      split at hs
      · cases hs
        exact Or.inl rfl
      next db hdb =>
        cases hs
        refine Or.inr ⟨{ s with db := db }, ?_, ?_⟩
        · simp only [ReportDesk.step, stage, hfree, hnew, hdb]
          rfl
        · simp only [ReportDesk.step, writeUsage, hfree]

/-- A close bills the record it stages for. -/
theorem ClosedBilled.close {a : StageArgs} (h : ClosedBilled s.db) (ho : InOrder s)
    (hs : s.close t a = some s') : ClosedBilled s'.db := by
  rcases close_eq_some hs with rfl | ⟨s₁, hstage, hbill⟩
  · exact h
  have ho₁ := ho.desk hstage
  obtain ⟨-, hstep⟩ := ho.tended.step hstage
  obtain ⟨husage, -⟩ := hstep.frame ho
  obtain ⟨-, hstep₁⟩ := ho₁.tended.step hbill
  obtain ⟨husage₁, -⟩ := hstep₁.frame ho₁
  -- the record of the period that is closed is billed
  have hclosed : ∀ u', s'.db.usage t = some u' → u'.billed = true := by
    simp only [ReportDesk.step, writeUsage] at hbill
    split at hbill
    · cases hbill
    · cases hbill
      intro u' hu'
      rw [BillingDb.markBilled_usage, if_pos rfl] at hu'
      obtain ⟨u, -, rfl⟩ := Option.map_eq_some_iff.mp hu'
      rfl
  intro r hr hclosing
  rcases hstep₁.origin ho₁.tended hr with ⟨q, hq, hadv⟩ | ⟨_, _, _, _, hasked, -⟩
  · rw [hadv.record]
    rcases hstep.origin ho.tended hq with ⟨q₀, hq₀, hadv₀⟩ | ⟨x, args, usage, customer, hx, hu, heq, -⟩
    · obtain ⟨u, hu, hb⟩ := h q₀ hq₀ (by rw [← hadv₀.closing, ← hadv.closing]; exact hclosing)
      rw [← hadv₀.record] at hu
      obtain ⟨u₁, hu₁, hb₁⟩ := husage _ u hu
      obtain ⟨u₂, hu₂, hb₂⟩ := husage₁ _ u₁ hu₁
      exact ⟨u₂, hu₂, hb₂ (hb₁ hb)⟩
    · obtain ⟨rfl, rfl⟩ := Prod.mk.inj (Option.some.inj hx)
      have hkey : q.usageRecordId = t := by
        rw [heq]
        exact s.db.usage_keyed t usage hu
      obtain ⟨u₁, hu₁, -⟩ := husage t usage hu
      obtain ⟨u₂, hu₂, -⟩ := husage₁ t u₁ hu₁
      exact ⟨u₂, by rw [hkey]; exact hu₂, hclosed u₂ hu₂⟩
  · cases hasked

/-- **One step.** -/
theorem InOrder.step {a : BillingAct} (h : InOrder s) (hc : ClosedBilled s.db)
    (hs : s.stepBilling a = some s') : InOrder s' ∧ ClosedBilled s'.db := by
  -- a handler that raises changes nothing
  have hhandled : ∀ r : Except BillingError BillingDb,
      (∀ db, r = .ok db → Grows s.db db ∧ db.Chargeable) →
      InOrder (s.handled r) ∧ ClosedBilled (s.handled r).db := by
    intro r hr
    cases r with
    | error e => exact ⟨h, hc⟩
    | ok db => exact ⟨h.handled (hr db rfl).1 (hr db rfl).2, hc.grows (hr db rfl).1⟩
  cases a with
  | desk a =>
    simp only [stepBilling] at hs
    split at hs
    · cases hs
    next hclosing =>
      refine ⟨h.desk hs, hc.desk h (fun t args hasked => ?_) hs⟩
      rw [hasked] at hclosing
      simpa using hclosing
  | close t a =>
    refine ⟨?_, hc.close h hs⟩
    rcases close_eq_some hs with rfl | ⟨s₁, hstage, hbill⟩
    · exact h
    · exact (h.desk hstage).desk hbill
  | createOrganization orgId authEnabled now =>
    cases hs
    refine hhandled _ fun db hdb => ?_
    cases hcr : s.rows.createOrganization orgId (newPlan authEnabled) now with
    | error e =>
      rw [hcr] at hdb
      cases hdb
    | ok st =>
      rw [hcr] at hdb
      cases hdb
      exact createOrganization_grows (by cases authEnabled <;> rfl) hcr
  | checkout orgId obj ctx =>
    simp only [stepBilling] at hs
    split at hs
    next hcustomer =>
      cases hs
      refine hhandled _ fun db hdb => ?_
      cases hdb
      exact handleCheckoutCompleted_grows s.rows hcustomer
    · cases hs
  | updated obj ctx =>
    cases hs
    refine hhandled _ fun db hdb => ?_
    cases hdb
    exact handleSubscriptionUpdated_grows s.rows h.chargeable
  | paymentFailed obj ctx =>
    cases hs
    refine hhandled _ fun db hdb => ?_
    cases hdb
    exact handleInvoicePaymentFailed_grows s.rows h.chargeable
  | renew orgId newStart newEnd ctx =>
    cases hs
    refine hhandled _ fun db hdb => ?_
    cases hdb
    exact renew_grows s.rows h.chargeable
  | downgrade orgId now =>
    cases hs
    exact hhandled _ fun db hdb => downgrade_grows hdb

theorem inOrder_of_opened (h : s.Opened) (hsub : s.db.Chargeable) :
    InOrder s ∧ ClosedBilled s.db := by
  have hnone : ∀ r, r ∉ s.db.reports := by
    rw [h.unstaged]
    exact fun r => List.not_mem_nil
  have hreads : ∀ w report usage read, (s.post w).reading = some (report, usage, read) →
      Reads s w report usage read := by
    intro w report usage read hr
    rw [h.idle w] at hr
    cases hr
  refine ⟨⟨tended_of_opened h, hreads, fun r hr => absurd hr (hnone r), fun t u hu => ?_,
    fun r hr => absurd hr (hnone r), hsub⟩, fun r hr => absurd hr (hnone r)⟩
  refine ⟨u.reported, sound_of_unstaged (tended_of_opened h) hreads hu ?_⟩
  exact List.eq_nil_iff_forall_not_mem.mpr fun r hr => hnone r (mem_reportsFor.mp hr).1

end ReportDesk
end PandaProbe
