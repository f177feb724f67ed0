import PandaProbe.GuardedRun
import PandaProbe.RenewalOrder

/-! # Usage history behind renewal invoices

`_sync_invoice_period` refuses an invoice whose period has no usage record, or one with
another end.  Records of a paid subscription come from three places: the checkout and
`invoice.paid` open the period Stripe is in when they run, and a sync opens the period
whose counters it finds.  `customer.subscription.updated` moves the subscription row and
opens nothing.

A run here is everything that happens around one subscription: Stripe renews it, its
events arrive late or twice, usage is counted, synced and expires.  `Kept` says which
periods have a record, in terms of what has happened; from it follows which invoices are
refused (`invoices_settle`).
-/
namespace PandaProbe
open GuardedRun

/-! ## What the writers do to the ends of the recorded periods -/

namespace BillingDb

/-- The end of the recorded period that starts at an instant. -/
def recordedEnd (db : BillingDb) (t : DateTime) : Option DateTime :=
  (db.usage t).map (fun u => u.periodEnd)

/-- The period from `t` to `e` is recorded, unless `t` has a record already; the other
records are as before. -/
def Records (db db' : BillingDb) (t e : DateTime) : Prop :=
  ∀ x, db'.recordedEnd x = if x = t then some ((db.recordedEnd t).getD e) else db.recordedEnd x

theorem recordedEnd_settlement (db : BillingDb) (t : DateTime) :
    db.recordedEnd t = (db.settlement t).map Prod.fst := by
  simp [recordedEnd, settlement, Function.comp_def]

theorem recordedEnd_eq_some {db : BillingDb} {t : DateTime} {u : UsageRecord}
    (h : db.usage t = some u) : db.recordedEnd t = some u.periodEnd := by
  simp [recordedEnd, h]

theorem recordedEnd_congr {db db' : BillingDb} (h : db'.settlement = db.settlement) :
    db'.recordedEnd = db.recordedEnd := by
  funext t
  simp [recordedEnd_settlement, h]

theorem recordedEnd_markBilled (db : BillingDb) (a : DateTime) (i : Option String) :
    (db.markBilled a i).recordedEnd = db.recordedEnd := by
  funext t
  simp only [recordedEnd, markBilled_usage]
  by_cases ht : t = a
  · simp [ht, Function.comp_def]
  · simp [ht]

theorem records_getOrCreateUsageRecord (db : BillingDb) (o : UUID) (a b : DateTime) :
    Records db (db.getOrCreateUsageRecord o a b) a b := by
  intro x
  simp only [recordedEnd, getOrCreateUsageRecord_usage]
  by_cases hx : x = a
  · cases hu : db.usage a <;> simp [hx, UsageRecord.fresh]
  · simp [hx]

theorem records_upsertUsageCounters (db : BillingDb) (o : UUID) (a b : DateTime)
    (n : UsageCategory → Int) : Records db (db.upsertUsageCounters o a b n) a b := by
  intro x
  simp only [recordedEnd, upsertUsageCounters_usage]
  by_cases hx : x = a
  · cases hu : db.usage a <;> simp [hx, UsageRecord.fresh]
  · simp [hx]

theorem stageOn_error {usage : UsageRecord} {reports : List BillingReport} {a : StageArgs}
    {e : BillingError} (h : stageOn usage reports a = .error e) : e = .noCustomer := by
  unfold stageOn at h
  split at h
  · cases h
  · simp only at h
    split at h
    · cases h
    · split at h
      · cases h
      · split at h
        · cases h
          rfl
        · split at h <;> cases h

/-- A reservation fails for want of a customer only. -/
theorem stage_error {db : BillingDb} {t : DateTime} {a : StageArgs} {e : BillingError}
    (h : db.stage t a = .error e) : e = .noCustomer := by
  unfold stage at h
  split at h
  · cases h
  · split at h
    next hon =>
      cases h
      exact stageOn_error hon
    · cases h
    · cases h

theorem reportOveragesToStripe_error {db : BillingDb} {ctx : HandlerCtx} {t : Option DateTime}
    {i : Option String} {e : BillingError} (h : db.reportOveragesToStripe ctx t i = .error e) :
    e = .noCustomer := by
  unfold reportOveragesToStripe at h
  split at h
  · cases h
  · split at h
    · cases h
    · split at h
      next hstage => cases h; exact stage_error hstage
      · cases h

end BillingDb

namespace UsageState
open BillingDb
variable {orgId : UUID} {st : UsageState}

/-- A sync of the period from `t` to `e` records it if it finds counters. -/
def Syncs (orgId : UUID) (st : UsageState) (db' : BillingDb) (t e : DateTime) : Prop :=
  if st.hashEmpty (usageKey orgId t) then db'.recordedEnd = st.db.recordedEnd
  else st.db.Records db' t e

theorem Syncs.of_eq {db' db'' : BillingDb} {t e : DateTime} (h : st.Syncs orgId db' t e)
    (heq : db''.recordedEnd = db'.recordedEnd) : st.Syncs orgId db'' t e := by
  unfold Syncs Records at *
  rw [heq]
  exact h

theorem syncToDatabase_of_none {p : Option (DateTime × DateTime)}
    (h : (p <|> st.db.subscription.map (fun s => (s.currentPeriodStart, s.currentPeriodEnd))) =
      none) : st.syncToDatabase orgId p = st := by
  simp only [syncToDatabase, h]

theorem syncToDatabase_of_some {p : Option (DateTime × DateTime)} {t e : DateTime}
    (h : (p <|> st.db.subscription.map (fun s => (s.currentPeriodStart, s.currentPeriodEnd))) =
      some (t, e)) : st.syncToDatabase orgId p = st.syncToDatabase orgId (some (t, e)) := by
  rw [syncToDatabase_some]
  simp only [syncToDatabase, h]

theorem syncs_syncToDatabase (t e : DateTime) :
    st.Syncs orgId (st.syncToDatabase orgId (some (t, e))).db t e := by
  rw [syncToDatabase_some]
  unfold Syncs
  split
  · rfl
  · exact records_upsertUsageCounters _ _ _ _ _

/-- A period that is recorded with its end is as good as synced. -/
theorem syncs_of_recorded {t e : DateTime} (h : st.db.recordedEnd t = some e) :
    st.Syncs orgId st.db t e := by
  unfold Syncs
  split
  · rfl
  · intro x
    by_cases hx : x = t
    · rw [if_pos hx, hx, h]
      rfl
    · rw [if_neg hx]

variable {obj : InvoiceEvent} {start stop : DateTime}

theorem syncs_syncInvoicePeriod (hperiod : invoicePeriod obj = .ok (start, stop))
    {st' : UsageState} {usage : UsageRecord}
    (h : st.syncInvoicePeriod orgId obj = .ok (st', usage)) :
    st.Syncs orgId st'.db start stop := by
  simp only [syncInvoicePeriod, hperiod, getCurrentUsageRecord] at h
  cases hu : st.db.usage start with
  | some u =>
    simp only [hu] at h
    split at h
    · cases h
    next hend =>
      split at h
      -- a billed period is not synced again
      · cases h
        exact syncs_of_recorded ((recordedEnd_eq_some hu).trans (by rw [not_not.mp hend]))
      · split at h
        · cases h
        · cases h
          exact syncs_syncToDatabase start stop
  | none =>
    simp only [hu] at h
    split at h
    · cases h
    · cases h
      exact syncs_syncToDatabase start stop

/-- The two errors that ask for a reconciliation of the usage history. -/
def Unreconciled (e : BillingError) : Prop := e = .historyMissing ∨ e = .periodMismatch

/-- **When an invoice's period is refused**: it is recorded with another end, or it has
neither a record nor counters. -/
theorem syncInvoicePeriod_error_iff (hperiod : invoicePeriod obj = .ok (start, stop)) :
    (∃ e, st.syncInvoicePeriod orgId obj = .error e ∧ Unreconciled e) ↔
      (∃ e, st.db.recordedEnd start = some e ∧ e ≠ stop) ∨
        (st.db.recordedEnd start = none ∧ st.hashEmpty (usageKey orgId start) = true) := by
  have hsync := @syncs_syncToDatabase orgId st start stop
  have hnone : ∀ db : BillingDb, db.usage start = none ↔ db.recordedEnd start = none := by
    intro db
    simp [recordedEnd]
  cases hu : st.db.usage start with
  | some u =>
    have hrec := recordedEnd_eq_some hu
    by_cases hend : u.periodEnd = stop
    · -- the record stays, so nothing is refused
      have hkeep : ∃ u', (st.syncToDatabase orgId (some (start, stop))).db.usage start =
          some u' := by
        rw [← Option.ne_none_iff_exists', Ne, hnone]
        unfold Syncs Records at hsync
        split at hsync
        · simp [hsync, hrec]
        · simp [hsync start]
      obtain ⟨u', hu'⟩ := hkeep
      simp only [syncInvoicePeriod, hperiod, getCurrentUsageRecord, hu, hend, hu', hrec]
      by_cases hb : u.billed = true <;> simp [hb]
    · simp [syncInvoicePeriod, hperiod, getCurrentUsageRecord, hu, hend, hrec, Unreconciled]
  | none =>
    have hrec := (hnone st.db).mp hu
    simp only [syncInvoicePeriod, hperiod, getCurrentUsageRecord, hu, hrec]
    unfold Syncs Records at hsync
    split at hsync
    next hempty =>
      have hu' : (st.syncToDatabase orgId (some (start, stop))).db.usage start = none := by
        rw [hnone, hsync, hrec]
      simp [hu', hempty, Unreconciled]
    next hempty =>
      have hrec' := hsync start
      rw [if_pos rfl] at hrec'
      obtain ⟨u', hu', -⟩ := Option.map_eq_some_iff.mp hrec'
      simp [hu', hempty]

end UsageState

/-! ## One subscription and everything around it -/

/-- What happens around a subscription.  An invoice closes a period that has ended, an
update carries a period Stripe has been in, and a sync writes the period it read from the
subscription row, now or a while ago. -/
inductive InvoiceAction
  | renewal
  | checkout (plan : SubscriptionPlan) (customer : Option String) (ctx : HandlerCtx)
  | signupPaid (invoiceId : String) (reason : Option String) (ctx : HandlerCtx)
  | invoiceCreated (i : Nat) (invoiceId : String) (ctx : HandlerCtx)
  | invoicePaid (i : Nat) (invoiceId : String) (ctx : HandlerCtx)
  | subscriptionUpdated (k : Nat) (status : Option String) (plan : Option SubscriptionPlan)
      (canceledAt : Option Int) (ctx : HandlerCtx)
  | syncUsage (k : Option Nat)
  | count (category : UsageCategory) (n : Int) (id : UUID)
  | uncount (category : UsageCategory) (n : Int) (id : UUID)
  | evictCache
  | expire (k : Nat)

/-- The period Stripe is in and the organization's state, with the starts of the periods
that were Stripe's when the checkout or an `invoice.paid` was handled, and of those whose
counters a sync found. -/
structure InvoiceRun where
  live : Nat
  state : UsageState
  opened : List DateTime
  synced : List DateTime

namespace InvoiceRun
variable (σ : RenewalSchedule) (s : InvoiceRun)

/-- The subscription as the handlers look it up. -/
def known : Option Subscription :=
  s.state.db.getSubscriptionByStripeSubscription σ.subscriptionId

/-- `invoice.created` goes on to the overages. -/
def captures : Bool := (s.known σ).any (fun sub => (getPlanConfig sub.plan).payAsYouGo)

/-- The synced periods after a sync of the one that starts at `t`. -/
def noteSync (t : DateTime) : List DateTime :=
  if s.state.hashEmpty (usageKey σ.orgId t) then s.synced else t :: s.synced

/-- The period a sync selects. -/
def selected (k : Option Nat) : Option (DateTime × DateTime) :=
  k.map (fun k => (σ.start k, σ.stop k)) <|>
    s.state.db.subscription.map (fun sub => (sub.currentPeriodStart, sub.currentPeriodEnd))

/-- Handle an `invoice.paid`; `retrieve` returns the period Stripe is in. -/
def handlePaid (obj : InvoiceEvent) (ctx : HandlerCtx) : Except BillingError UsageState :=
  s.state.handleInvoicePaid σ.orgId obj (σ.bound s.live, σ.bound (s.live + 1)) ctx

/-- A paid invoice other than a renewal's, of which the handler reads no period. -/
def signupInvoice (id : String) (reason : Option String) : InvoiceEvent :=
  ⟨id, some σ.subscriptionId, reason, none, none⟩

/-- One action, `none` where it cannot happen.  A handler that raises leaves the state. -/
def step : InvoiceAction → Option InvoiceRun
  | .renewal => some { s with live := s.live + 1 }
  | .checkout plan customer ctx =>
    some { s with
      state := s.state.handleCheckoutCompleted σ.orgId
        ⟨plan, customer, σ.subscriptionId, σ.bound s.live, σ.bound (s.live + 1)⟩ ctx
      opened := σ.start s.live :: s.opened }
  | .signupPaid id reason ctx =>
    if reason = some renewalBillingReason then none
    else
      match s.handlePaid σ (signupInvoice σ id reason) ctx with
      | .error _ => some s
      | .ok st =>
        if (s.known σ).isSome then
          some { s with state := st, opened := σ.start s.live :: s.opened }
        else some { s with state := st }
  | .invoiceCreated i id ctx =>
    if i < s.live then
      match s.state.handleInvoiceCreated σ.orgId (σ.invoice i id) ctx with
      | .error _ => some s
      | .ok st =>
        if s.captures σ then some { s with state := st, synced := s.noteSync σ (σ.start i) }
        else some { s with state := st }
    else none
  | .invoicePaid i id ctx =>
    if i < s.live then
      match s.handlePaid σ (σ.invoice i id) ctx with
      | .error _ => some s
      | .ok st =>
        if (s.known σ).isSome then
          some ⟨s.live, st, σ.start s.live :: s.opened, s.noteSync σ (σ.start i)⟩
        else some { s with state := st }
    else none
  | .subscriptionUpdated k status plan canceledAt ctx =>
    if k ≤ s.live then
      some { s with
        state := s.state.handleSubscriptionUpdated
          ⟨σ.subscriptionId, status, plan, canceledAt, some (σ.bound k, σ.bound (k + 1))⟩ ctx }
    else none
  | .syncUsage k =>
    if k.all (fun k => decide (k ≤ s.live)) then
      some { s with
        state := s.state.syncToDatabase σ.orgId (k.map (fun k => (σ.start k, σ.stop k)))
        synced := match s.selected σ k with
          | none => s.synced
          | some (t, _) => s.noteSync σ t }
    else none
  | .count category n id =>
    some { s with state := (s.state.checkAndIncrement σ.orgId category n id).1 }
  | .uncount category n id =>
    some { s with state := s.state.rollbackIncrement σ.orgId category n id }
  | .evictCache => some { s with state := s.state.invalidateSubscriptionCache }
  | .expire k =>
    if k < s.live then some { s with state := s.state.deleteUsageKey σ.orgId (σ.start k) }
    else none

/-- What the two invoice handlers raise. -/
def failure : InvoiceAction → Option BillingError
  | .invoiceCreated i id ctx =>
    match s.state.handleInvoiceCreated σ.orgId (σ.invoice i id) ctx with
    | .error e => some e
    | .ok _ => none
  | .invoicePaid i id ctx =>
    match s.handlePaid σ (σ.invoice i id) ctx with
    | .error e => some e
    | .ok _ => none
  | _ => none

/-- The action is not refused for its usage history. -/
def Settles (a : InvoiceAction) : Prop :=
  s.failure σ a ≠ some .historyMissing ∧ s.failure σ a ≠ some .periodMismatch

/-- Something is left of a period: it was Stripe's when the checkout or an `invoice.paid`
was handled, a sync found its counters, or its counters are still there. -/
def HasHistory (i : Nat) : Prop :=
  σ.start i ∈ s.opened ∨ σ.start i ∈ s.synced ∨
    s.state.hashEmpty (usageKey σ.orgId (σ.start i)) = false

/-- An invoice that gets as far as its usage finds some. -/
def InTurn : InvoiceAction → Prop
  | .invoiceCreated i _ ctx => s.captures σ = true → ctx.lockFree = true → s.HasHistory σ i
  | .invoicePaid i _ ctx => (s.known σ).isSome = true → ctx.lockFree = true → s.HasHistory σ i
  | _ => True

/-- Before the checkout: the organization may have other periods, none of them the
subscription's. -/
structure Before (st : UsageState) : Prop where
  row : ∀ sub, st.db.subscription = some sub →
    sub.stripeSubscriptionId ≠ some σ.subscriptionId ∧ ∀ i, sub.currentPeriodStart ≠ σ.start i
  usage : ∀ i, st.db.usage (σ.start i) = none

/-- Nothing has happened yet. -/
def initial (st : UsageState) : InvoiceRun := ⟨0, st, [], []⟩

/-! ## Which periods have a record -/

/-- The periods of the subscription with a record are those in a list of starts, each
with its own end. -/
def Recorded (db : BillingDb) (starts : List DateTime) : Prop :=
  ∀ i, db.recordedEnd (σ.start i) = if σ.start i ∈ starts then some (σ.stop i) else none

/-- Bounds that are a period of the subscription, or start with none of them. -/
def Aligned (t e : DateTime) : Prop :=
  (∃ k, t = σ.start k ∧ e = σ.stop k) ∨ ∀ i, t ≠ σ.start i

/-- The row of the subscription is in one of its periods; another row starts with none. -/
def RowAligned (db : BillingDb) : Prop :=
  ∀ sub, db.subscription = some sub →
    (∃ k, sub.currentPeriodStart = σ.start k ∧ sub.currentPeriodEnd = σ.stop k) ∨
      (sub.stripeSubscriptionId ≠ some σ.subscriptionId ∧
        ∀ i, sub.currentPeriodStart ≠ σ.start i)

/-- **The records are those the run has opened or synced.** -/
structure Kept : Prop where
  recorded : Recorded σ s.state.db (s.opened ++ s.synced)
  row : RowAligned σ s.state.db

variable {σ s}

theorem Recorded.of_eq {db db' : BillingDb} {starts starts' : List DateTime}
    (h : Recorded σ db starts) (heq : db'.recordedEnd = db.recordedEnd)
    (hmem : ∀ t, t ∈ starts' ↔ t ∈ starts) : Recorded σ db' starts' := by
  intro i
  rw [heq, h i]
  simp only [hmem]

theorem Recorded.records {db db' : BillingDb} {starts : List DateTime} {t e : DateTime}
    (h : Recorded σ db starts) (halign : Aligned σ t e) (hrec : db.Records db' t e) :
    Recorded σ db' (t :: starts) := by
  intro i
  rw [hrec]
  by_cases hi : σ.start i = t
  · rcases halign with ⟨k, hk, rfl⟩ | hout
    · -- two periods with one start are one
      have hik : i = k := σ.start_injective (hi.trans hk)
      subst hik
      rw [if_pos hi, if_pos (by simp [hi]), ← hi, h i]
      split <;> rfl
    · exact absurd hi.symm (hout i)
  · rw [if_neg hi, h i]
    simp [hi]

/-- A sync adds the period it finds counters of, and nothing else. -/
theorem Recorded.syncs {db' : BillingDb} {t e : DateTime}
    (h : Recorded σ s.state.db (s.opened ++ s.synced)) (halign : Aligned σ t e)
    (hsync : s.state.Syncs σ.orgId db' t e) :
    Recorded σ db' (s.opened ++ s.noteSync σ t) := by
  unfold UsageState.Syncs at hsync
  unfold noteSync
  split at hsync
  next hempty =>
    rw [if_pos hempty]
    exact h.of_eq hsync (fun _ => Iff.rfl)
  next hempty =>
    rw [if_neg hempty]
    refine (h.records halign hsync).of_eq rfl (fun x => ?_)
    simp only [List.mem_append, List.mem_cons]
    tauto

/-- An action that writes no row of the database. -/
theorem Kept.of_db_eq (h : Kept σ s) {st : UsageState} (heq : st.db = s.state.db) :
    Kept σ { s with state := st } where
  recorded := by
    change Recorded σ st.db (s.opened ++ s.synced)
    rw [heq]
    exact h.recorded
  row := by
    change RowAligned σ st.db
    rw [heq]
    exact h.row

theorem aligned_period (k : Nat) : Aligned σ (σ.start k) (σ.stop k) := Or.inl ⟨k, rfl, rfl⟩

/-- The end of a renewal records the period Stripe is in. -/
theorem Recorded.renew {st : UsageState} {starts : List DateTime} (h : Recorded σ st.db starts)
    (ctx : HandlerCtx) (k : Nat) :
    Recorded σ (st.renew σ.orgId ctx (σ.start k) (σ.stop k)).db (σ.start k :: starts) := by
  have hadv : Recorded σ (st.db.advancePeriod (σ.start k) (σ.stop k)) starts :=
    h.of_eq rfl (fun _ => Iff.rfl)
  have hrec := hadv.records (aligned_period k)
    (BillingDb.records_getOrCreateUsageRecord _ σ.orgId (σ.start k) (σ.stop k))
  simp only [UsageState.renew, UsageState.warmSubCache_db]
  exact hrec.of_eq rfl (fun _ => Iff.rfl)

/-- The row of a known subscription moves on to another of its periods. -/
theorem RowAligned.advance {db db' : BillingDb} {sub : Subscription} {k : Nat}
    (h : RowAligned σ db)
    (hsub : db.getSubscriptionByStripeSubscription σ.subscriptionId = some sub)
    {f : Subscription → Subscription}
    (hf : ∀ s, (f s).currentPeriodStart = s.currentPeriodStart ∧
      (f s).currentPeriodEnd = s.currentPeriodEnd)
    (hdb' : db'.subscription =
      (db.subscription.map (BillingDb.Subscription.advance (σ.start k) (σ.stop k))).map f) :
    RowAligned σ db' := by
  obtain ⟨hrow, hid⟩ := (db.getSubscriptionByStripeSubscription_eq_some).mp hsub
  intro sub' hsub'
  rw [hdb', hrow] at hsub'
  cases hsub'
  rcases h sub hrow with ⟨j, hstart, hstop⟩ | ⟨hne, -⟩
  · obtain ⟨ha, hb, -⟩ := RenewalRun.advance_period k hstart hstop
    exact Or.inl ⟨max k j, (hf _).1.trans ha, (hf _).2.trans hb⟩
  · exact absurd hid hne

theorem truthy_subscriptionId : truthy (some σ.subscriptionId) = some σ.subscriptionId := by
  simp [truthy, σ.subscriptionId_ne]

theorem known_invoice (i : Nat) (id : String) :
    (truthy (σ.invoice i id).subscriptionId).bind
      s.state.db.getSubscriptionByStripeSubscription = s.known σ := by
  simp only [RenewalSchedule.invoice, truthy_subscriptionId, Option.bind_some, known]

theorem known_signupInvoice (id : String) (reason : Option String) :
    (truthy (signupInvoice σ id reason).subscriptionId).bind
      s.state.db.getSubscriptionByStripeSubscription = s.known σ := by
  simp only [signupInvoice, truthy_subscriptionId, Option.bind_some, known]

/-! ## One action -/

theorem kept_checkout (h : Kept σ s) (plan : SubscriptionPlan) (customer : Option String)
    (ctx : HandlerCtx) :
    Kept σ { s with
      state := s.state.handleCheckoutCompleted σ.orgId
        ⟨plan, customer, σ.subscriptionId, σ.bound s.live, σ.bound (s.live + 1)⟩ ctx
      opened := σ.start s.live :: s.opened } := by
  refine ⟨?_, ?_⟩
  · simp only [UsageState.handleCheckoutCompleted, UsageState.warmSubCache_db]
    have hput : Recorded σ (s.state.db.putSubscription (s.state.checkoutSubscription σ.orgId
        ⟨plan, customer, σ.subscriptionId, σ.bound s.live, σ.bound (s.live + 1)⟩))
        (s.opened ++ s.synced) := h.recorded.of_eq rfl (fun _ => Iff.rfl)
    exact hput.records (aligned_period s.live)
      (BillingDb.records_getOrCreateUsageRecord _ σ.orgId (σ.start s.live) (σ.stop s.live))
  · intro sub hsub
    simp only [UsageState.handleCheckoutCompleted, UsageState.warmSubCache_db,
      BillingDb.getOrCreateUsageRecord_subscription, BillingDb.putSubscription_subscription] at hsub
    cases hsub
    refine Or.inl ⟨s.live, ?_, ?_⟩
    · unfold UsageState.checkoutSubscription
      split <;> rfl
    · unfold UsageState.checkoutSubscription
      split <;> rfl

/-- Renewing a known subscription, from rows that differ from the run's by a sync. -/
theorem kept_renew (h : Kept σ s) {sub : Subscription} (hknown : s.known σ = some sub)
    {st : UsageState} {synced : List DateTime} (hrec : Recorded σ st.db (s.opened ++ synced))
    (hrow : st.db.subscription = s.state.db.subscription) (ctx : HandlerCtx) :
    Kept σ ⟨s.live, st.renew σ.orgId ctx (σ.start s.live) (σ.stop s.live),
      σ.start s.live :: s.opened, synced⟩ := by
  refine ⟨hrec.renew ctx s.live, ?_⟩
  refine h.row.advance hknown (f := fun s => { s with status := .active })
    (fun s => ⟨rfl, rfl⟩) (k := s.live) ?_
  rw [(UsageState.renew_frame ctx (σ.start s.live) (σ.stop s.live)).2, hrow]

theorem kept_signupPaid (h : Kept σ s) {id : String} {reason : Option String}
    (hreason : reason ≠ some renewalBillingReason) {ctx : HandlerCtx} {st : UsageState}
    (hok : s.handlePaid σ (signupInvoice σ id reason) ctx = .ok st) :
    Kept σ (if (s.known σ).isSome then
      { s with state := st, opened := σ.start s.live :: s.opened } else { s with state := st }) := by
  unfold handlePaid UsageState.handleInvoicePaid at hok
  rw [known_signupInvoice] at hok
  cases hknown : s.known σ with
  | none =>
    rw [hknown] at hok
    cases hok
    exact h
  | some sub =>
    rw [hknown] at hok
    have hother : (signupInvoice σ id reason).billingReason ≠ some renewalBillingReason := hreason
    simp only [if_neg hother] at hok
    cases hok
    exact kept_renew h hknown h.recorded rfl ctx

theorem kept_invoiceCreated (h : Kept σ s) {i : Nat} {id : String} {ctx : HandlerCtx}
    {st : UsageState}
    (hok : s.state.handleInvoiceCreated σ.orgId (σ.invoice i id) ctx = .ok st) :
    Kept σ (if s.captures σ then { s with state := st, synced := s.noteSync σ (σ.start i) }
      else { s with state := st }) := by
  obtain ⟨-, hsub⟩ := RenewalRun.handleInvoiceCreated_frame hok
  unfold UsageState.handleInvoiceCreated at hok
  have hreason : (σ.invoice i id).billingReason = some renewalBillingReason := rfl
  rw [if_neg (not_not.mpr hreason), known_invoice] at hok
  unfold captures
  cases hknown : s.known σ with
  | none =>
    rw [hknown] at hok
    cases hok
    exact h
  | some sub =>
    rw [hknown] at hok
    cases hpay : (getPlanConfig sub.plan).payAsYouGo with
    | false =>
      simp only [hpay, Bool.not_false, if_true] at hok
      cases hok
      simpa [hpay] using h
    | true =>
      simp only [hpay, Bool.not_true, Bool.false_eq_true, if_false] at hok
      simp only [Option.any_some, hpay, if_true]
      refine ⟨?_, fun sub' hsub' => h.row sub' (hsub ▸ hsub')⟩
      split at hok
      · cases hok
      · split at hok
        · cases hok
        next st₁ usage hsync =>
          have hsyncs := UsageState.syncs_syncInvoicePeriod (σ.invoicePeriod_invoice i id) hsync
          split at hok
          · cases hok
            exact h.recorded.syncs (aligned_period i) hsyncs
          · split at hok
            · cases hok
            next hreport =>
              cases hok
              have heq := BillingDb.recordedEnd_congr (BillingDb.reportOveragesToStripe_frame hreport).1
              exact h.recorded.syncs (aligned_period i) (hsyncs.of_eq heq)

theorem kept_invoicePaid (h : Kept σ s) {i : Nat} {id : String} {ctx : HandlerCtx}
    {st : UsageState} (hok : s.handlePaid σ (σ.invoice i id) ctx = .ok st) :
    Kept σ (if (s.known σ).isSome then
      ⟨s.live, st, σ.start s.live :: s.opened, s.noteSync σ (σ.start i)⟩
      else { s with state := st }) := by
  cases hknown : s.known σ with
  | none =>
    unfold handlePaid UsageState.handleInvoicePaid at hok
    rw [known_invoice, hknown] at hok
    cases hok
    exact h
  | some sub =>
    obtain ⟨st₁, usage, hsync, hcase⟩ :=
      RenewalRun.handleInvoicePaid_ok ((known_invoice i id).trans hknown) hok
    have hsyncs := UsageState.syncs_syncInvoicePeriod (σ.invoicePeriod_invoice i id) hsync
    obtain ⟨-, hsub, -⟩ := UsageState.syncInvoicePeriod_spec (σ.invoicePeriod_invoice i id) hsync
    have hrec := h.recorded.syncs (aligned_period i) hsyncs
    rcases hcase with ⟨-, rfl⟩ | ⟨-, db, hdbu, hdbs, rfl⟩
    · exact kept_renew h hknown hrec hsub ctx
    · -- closing the period keeps its end
      refine kept_renew h hknown (hrec.of_eq ?_ (fun _ => Iff.rfl)) ?_ ctx
      · rw [BillingDb.recordedEnd_markBilled]
        funext t
        simp only [BillingDb.recordedEnd, hdbu]
      · rw [BillingDb.markBilled_subscription, hdbs, hsub]

/-- The update event moves the row and opens nothing. -/
theorem kept_subscriptionUpdated (h : Kept σ s) (k : Nat) (status : Option String)
    (plan : Option SubscriptionPlan) (canceledAt : Option Int) (ctx : HandlerCtx) :
    Kept σ { s with
      state := s.state.handleSubscriptionUpdated
        ⟨σ.subscriptionId, status, plan, canceledAt, some (σ.bound k, σ.bound (k + 1))⟩ ctx } := by
  unfold UsageState.handleSubscriptionUpdated
  cases hknown : s.known σ with
  | none =>
    unfold known at hknown
    simp only [hknown]
    exact h
  | some sub =>
    have hne : σ.bound k ≠ 0 ∧ σ.bound (k + 1) ≠ 0 :=
      ⟨(σ.bound_pos' k).ne', (σ.bound_pos' (k + 1)).ne'⟩
    have hlookup := hknown
    unfold known at hlookup
    simp only [hlookup, UsageState.eventPeriod, if_pos hne]
    refine ⟨?_, ?_⟩
    · simp only [UsageState.warmSubCache_db]
      exact h.recorded.of_eq rfl (fun _ => Iff.rfl)
    · simp only [UsageState.warmSubCache_db]
      refine h.row.advance hknown (k := k) (f := fun s => { s with
        status := UsageState.mapStatus status
        plan := plan.getD s.plan
        canceledAt := (canceledAt.filter (· ≠ 0)).map DateTime.fromTimestamp })
        (fun s => ⟨rfl, rfl⟩) rfl

theorem kept_syncUsage (h : Kept σ s) (k : Option Nat) :
    Kept σ { s with
      state := s.state.syncToDatabase σ.orgId (k.map (fun k => (σ.start k, σ.stop k)))
      synced := match s.selected σ k with
        | none => s.synced
        | some (t, _) => s.noteSync σ t } := by
  have hrow : RowAligned σ
      (s.state.syncToDatabase σ.orgId (k.map (fun k => (σ.start k, σ.stop k)))).db := by
    intro sub hsub
    rw [(UsageState.syncToDatabase_frame _).2] at hsub
    exact h.row sub hsub
  -- the bounds selected are a period, or those of a row before the checkout
  have halign : ∀ t e, s.selected σ k = some (t, e) → Aligned σ t e := by
    intro t e hsel
    cases k with
    | some k =>
      cases hsel
      exact aligned_period k
    | none =>
      obtain ⟨sub, hsub, hbounds⟩ := Option.map_eq_some_iff.mp hsel
      cases hbounds
      rcases h.row sub hsub with hin | ⟨-, hout⟩
      · exact Or.inl hin
      · exact Or.inr hout
  refine ⟨?_, hrow⟩
  cases hsel : s.selected σ k with
  | none =>
    simp only [UsageState.syncToDatabase_of_none hsel]
    exact h.recorded
  | some p =>
    obtain ⟨t, e⟩ := p
    simp only [UsageState.syncToDatabase_of_some hsel]
    exact h.recorded.syncs (halign t e hsel) (UsageState.syncs_syncToDatabase t e)

/-- **One action keeps the records those the run has opened or synced.** -/
theorem kept_step {s' : InvoiceRun} {a : InvoiceAction} (h : Kept σ s)
    (hstep : s.step σ a = some s') : Kept σ s' := by
  cases a with
  | renewal =>
    cases hstep
    exact ⟨h.recorded, h.row⟩
  | checkout plan customer ctx =>
    cases hstep
    exact kept_checkout h plan customer ctx
  | signupPaid id reason ctx =>
    simp only [step] at hstep
    split at hstep
    · cases hstep
    next hreason =>
      split at hstep
      · cases hstep
        exact h
      next hok =>
        have hkept := kept_signupPaid h hreason hok
        rw [← apply_ite some] at hstep
        cases hstep
        exact hkept
  | invoiceCreated i id ctx =>
    simp only [step] at hstep
    split at hstep
    · split at hstep
      · cases hstep
        exact h
      next hok =>
        have hkept := kept_invoiceCreated h hok
        rw [← apply_ite some] at hstep
        cases hstep
        exact hkept
    · cases hstep
  | invoicePaid i id ctx =>
    simp only [step] at hstep
    split at hstep
    · split at hstep
      · cases hstep
        exact h
      next hok =>
        have hkept := kept_invoicePaid h hok
        rw [← apply_ite some] at hstep
        cases hstep
        exact hkept
    · cases hstep
  | subscriptionUpdated k status plan canceledAt ctx =>
    simp only [step] at hstep
    split at hstep
    · cases hstep
      exact kept_subscriptionUpdated h k status plan canceledAt ctx
    · cases hstep
  | syncUsage k =>
    simp only [step] at hstep
    split at hstep
    · cases hstep
      exact kept_syncUsage h k
    · cases hstep
  | count category n id =>
    cases hstep
    exact h.of_db_eq (UsageState.checkAndIncrement_db s.state category n id)
  | uncount category n id =>
    cases hstep
    exact h.of_db_eq (UsageState.rollbackIncrement_db s.state category n id)
  | evictCache =>
    cases hstep
    exact h.of_db_eq rfl
  | expire k =>
    simp only [step] at hstep
    split at hstep
    · cases hstep
      exact h.of_db_eq rfl
    · cases hstep

theorem Before.kept {st : UsageState} (h : Before σ st) : Kept σ (initial st) where
  recorded i := by simp [initial, BillingDb.recordedEnd, h.usage i]
  row sub hsub := Or.inr (h.row sub hsub)

/-! ## Which invoices are refused -/

theorem settles_iff (a : InvoiceAction) :
    s.Settles σ a ↔ ¬ ∃ e, s.failure σ a = some e ∧ UsageState.Unreconciled e := by
  unfold Settles UsageState.Unreconciled
  constructor
  · rintro ⟨hm, hp⟩ ⟨e, he, rfl | rfl⟩
    · exact hm he
    · exact hp he
  · intro h
    exact ⟨fun he => h ⟨_, he, Or.inl rfl⟩, fun he => h ⟨_, he, Or.inr rfl⟩⟩

/-- `invoice.created` asks for a reconciliation where the sync of its period does. -/
theorem failure_invoiceCreated (i : Nat) (id : String) (ctx : HandlerCtx) :
    (∃ e, s.failure σ (.invoiceCreated i id ctx) = some e ∧ UsageState.Unreconciled e) ↔
      s.captures σ = true ∧ ctx.lockFree = true ∧
        ∃ e, s.state.syncInvoicePeriod σ.orgId (σ.invoice i id) = .error e ∧
          UsageState.Unreconciled e := by
  have hreason : (σ.invoice i id).billingReason = some renewalBillingReason := rfl
  simp only [failure, captures, UsageState.handleInvoiceCreated, if_neg (not_not.mpr hreason),
    known_invoice]
  cases hknown : s.known σ with
  | none => simp
  | some sub =>
    cases hpay : (getPlanConfig sub.plan).payAsYouGo with
    | false => simp [hpay]
    | true =>
      cases hlock : ctx.lockFree with
      | false => simp [hpay, UsageState.Unreconciled]
      | true =>
        cases hsync : s.state.syncInvoicePeriod σ.orgId (σ.invoice i id) with
        | error e => simp [hpay]
        | ok r =>
          obtain ⟨st, usage⟩ := r
          cases hreport : st.db.reportOveragesToStripe ctx (some usage.periodStart)
              (some (σ.invoice i id).id) with
          | error e =>
            have he := BillingDb.reportOveragesToStripe_error hreport
            by_cases hb : usage.billed = true <;>
              simp [hpay, hb, hreport, he, UsageState.Unreconciled]
          | ok db => by_cases hb : usage.billed = true <;> simp [hpay, hb, hreport]

theorem failure_invoicePaid (i : Nat) (id : String) (ctx : HandlerCtx) :
    (∃ e, s.failure σ (.invoicePaid i id ctx) = some e ∧ UsageState.Unreconciled e) ↔
      (s.known σ).isSome = true ∧ ctx.lockFree = true ∧
        ∃ e, s.state.syncInvoicePeriod σ.orgId (σ.invoice i id) = .error e ∧
          UsageState.Unreconciled e := by
  have hreason : (σ.invoice i id).billingReason = some renewalBillingReason := rfl
  simp only [failure, handlePaid, UsageState.handleInvoicePaid, if_pos hreason, known_invoice]
  cases hknown : s.known σ with
  | none => simp
  | some sub =>
    cases hlock : ctx.lockFree with
    | false => simp [UsageState.Unreconciled]
    | true =>
      cases hsync : s.state.syncInvoicePeriod σ.orgId (σ.invoice i id) with
      | error e => simp
      | ok r =>
        obtain ⟨st, usage⟩ := r
        cases hstage : st.db.stage usage.periodStart
            (BillingDb.stageArgs sub ctx none (some (σ.invoice i id).id)) with
        | error e =>
          have he := BillingDb.stage_error hstage
          by_cases hb : usage.billed = true <;> simp [hb, hstage, he, UsageState.Unreconciled]
        | ok db => by_cases hb : usage.billed = true <;> simp [hb, hstage]

/-- The sync of a period of the subscription fails exactly when nothing is left of it: a
record always has its period's own end. -/
theorem Kept.syncInvoicePeriod_error_iff (h : Kept σ s) (i : Nat) (id : String) :
    (∃ e, s.state.syncInvoicePeriod σ.orgId (σ.invoice i id) = .error e ∧
      UsageState.Unreconciled e) ↔ ¬ s.HasHistory σ i := by
  rw [UsageState.syncInvoicePeriod_error_iff (σ.invoicePeriod_invoice i id), h.recorded i]
  unfold HasHistory
  by_cases hmem : σ.start i ∈ s.opened ++ s.synced
  · rw [if_pos hmem]
    rw [List.mem_append] at hmem
    simp only [reduceCtorEq, false_and, or_false, ← or_assoc, hmem, true_or, not_true, iff_false]
    rintro ⟨e, he, hne⟩
    exact hne (Option.some.inj he).symm
  · rw [if_neg hmem]
    rw [List.mem_append] at hmem
    simp only [reduceCtorEq, false_and, exists_false, false_or, true_and, ← or_assoc, hmem]
    cases s.state.hashEmpty (usageKey σ.orgId (σ.start i)) <;> simp

/-- **A renewal invoice is settleable if and only if something is left of its period.**  In
every state of every run of a subscription, with its events late, twice or in any order,
an invoice handler raises neither of the two history errors if and only if it does not get
as far as the usage (an unknown subscription, a plan without overage for
`invoice.created`, a busy lock), or the invoice's period was Stripe's when the checkout or
an `invoice.paid` was handled, or a sync found its counters, or they are still in Redis. -/
theorem invoices_settle {st : UsageState} (h₀ : Before σ st) {s : InvoiceRun}
    (hs : Reach (step σ) Always (initial st) s) (a : InvoiceAction) :
    s.Settles σ a ↔ s.InTurn σ a := by
  have hkept : Kept σ s := hs.invariant h₀.kept (fun _ _ _ hk _ hstep => kept_step hk hstep)
  rw [settles_iff]
  cases a with
  | invoiceCreated i id ctx =>
    rw [failure_invoiceCreated, hkept.syncInvoicePeriod_error_iff]
    simp only [InTurn, not_and, not_not]
  | invoicePaid i id ctx =>
    rw [failure_invoicePaid, hkept.syncInvoicePeriod_error_iff]
    simp only [InTurn, not_and, not_not]
  | _ => simp [failure, InTurn]

/-- An organization on the free plan, before any checkout. -/
def signedUp : UsageState :=
  ⟨(BillingDb.empty.putSubscription
      ⟨"org", .hobby, .active, none, none, 0, DateTime.days 30, none⟩).putUsage
      (UsageRecord.fresh "org" 0 (DateTime.days 30)),
    none, ⟨fun _ _ => none, fun _ => none⟩⟩

theorem zero_ne_start (i : Nat) : 0 ≠ σ.start i := by
  have hpos : 0 < σ.bound i * 1000000 := Int.mul_pos (σ.bound_pos' i) (by norm_num)
  exact hpos.ne

theorem before_signedUp : Before RenewalRun.monthly signedUp where
  row sub hsub := by
    cases hsub
    exact ⟨by simp, zero_ne_start⟩
  usage i := by
    simp only [signedUp, BillingDb.putUsage_usage, UsageRecord.fresh]
    exact Function.update_of_ne (zero_ne_start i).symm _ _

/-- Free locks, a warm cache and nothing delivered. -/
def plainCtx (id : UUID) : HandlerCtx := ⟨true, true, 0, id, []⟩

/-- A checkout, and a renewal whose invoice is paid in the next period. -/
def prompt : List InvoiceAction :=
  [.checkout .pro (some "cus") (plainCtx "a"), .renewal, .invoicePaid 0 "in_0" (plainCtx "b"),
    .renewal]

/-- The invoice of a period without usage is settled. -/
theorem invoices_settle_prompt : ∃ s,
    run (step RenewalRun.monthly) (initial signedUp) prompt = some s ∧
      s.Settles RenewalRun.monthly (.invoicePaid 1 "in_1" (plainCtx "c")) := by
  obtain ⟨s, hs⟩ := Option.isSome_iff_exists.mp
    (show (run (step RenewalRun.monthly) (initial signedUp) prompt).isSome from by decide +kernel)
  refine ⟨s, hs, (invoices_settle before_signedUp (reach_of_run hs) _).mpr ?_⟩
  have hopened : (run (step RenewalRun.monthly) (initial signedUp) prompt).map
      (fun s => decide (RenewalRun.monthly.start 1 ∈ s.opened)) = some true := by decide +kernel
  rw [hs] at hopened
  exact fun _ _ => Or.inl (of_decide_eq_true (Option.some.inj hopened))

/-- The update event of the second period comes in time, the paid invoice of the first only
in the third, and the second has no usage. -/
def overtaken : List InvoiceAction :=
  [.checkout .pro (some "cus") (plainCtx "a"), .renewal,
    .subscriptionUpdated 1 (some "active") (some .pro) none (plainCtx "b"), .renewal,
    .invoicePaid 0 "in_0" (plainCtx "c")]

/-- The second period's invoice finds no usage history. -/
theorem history_missing_overtaken : ¬ ∀ (σ : RenewalSchedule) (st : UsageState) (s : InvoiceRun),
    Before σ st → Reach (step σ) Always (initial st) s →
      ∀ a s', s.step σ a = some s' → s.Settles σ a := by
  intro h
  obtain ⟨s, hs⟩ := Option.isSome_iff_exists.mp
    (show (run (step RenewalRun.monthly) (initial signedUp) overtaken).isSome from by
      decide +kernel)
  have hbad : (run (step RenewalRun.monthly) (initial signedUp) overtaken).map (fun s =>
      (s.failure RenewalRun.monthly (.invoicePaid 1 "in_1" (plainCtx "d")),
        (s.step RenewalRun.monthly (.invoicePaid 1 "in_1" (plainCtx "d"))).isSome)) =
      some (some .historyMissing, true) := by decide +kernel
  rw [hs] at hbad
  obtain ⟨hfail, hsome⟩ := Prod.mk.inj (Option.some.inj hbad)
  obtain ⟨s', hs'⟩ := Option.isSome_iff_exists.mp hsome
  exact (h RenewalRun.monthly signedUp s before_signedUp (reach_of_run hs) _ s' hs').1 hfail

end InvoiceRun
end PandaProbe
