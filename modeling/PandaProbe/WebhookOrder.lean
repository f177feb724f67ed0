import PandaProbe.Settlement
import PandaProbe.HighWater

/-! # Subscription events in any order

`customer.subscription.updated`, `invoice.payment_failed` and `invoice.paid` each write
columns of the subscription row.  The period bounds go through the guarded `advance_period`
and only move forward; the status, the plan and the cancellation time are overwritten with
what the event carries, however old it is.

What an event does to the row is `rowAfter` (`handle_row`), so a delivery order is a fold
over it (`delivered_row`).  Two events whose periods are comparable commute on the row when
they write the same columns to the same values (`rowAfter_comm`), and
`never_rewinds_iff` says that nothing less will do.
-/
namespace PandaProbe

/-- An event of a Stripe subscription.  A paid invoice comes with the period of the
subscription retrieved for it. -/
inductive WebhookEvent
  | updated (obj : SubscriptionEvent)
  | paymentFailed (obj : InvoiceEvent)
  | paid (obj : InvoiceEvent) (live : Int × Int)

/-- The period of a row. -/
def Subscription.bounds (s : Subscription) : DateTime × DateTime :=
  (s.currentPeriodStart, s.currentPeriodEnd)

namespace WebhookEvent
open UsageState BillingDb

/-- The handler of an event. -/
def handle (orgId : UUID) (st : UsageState) (ctx : HandlerCtx) :
    WebhookEvent → Except BillingError UsageState
  | .updated obj => .ok (st.handleSubscriptionUpdated obj ctx)
  | .paymentFailed obj => .ok (st.handleInvoicePaymentFailed obj ctx)
  | .paid obj live => st.handleInvoicePaid orgId obj live ctx

/-- The event is of the Stripe subscription `sid`. -/
def IsOf (sid : String) : WebhookEvent → Prop
  | .updated obj => obj.id = sid
  | .paymentFailed obj => truthy obj.subscriptionId = some sid
  | .paid obj _ => truthy obj.subscriptionId = some sid

/-! ## What an event writes -/

/-- The status. -/
def status : WebhookEvent → SubscriptionStatus
  | .updated obj => mapStatus obj.status
  | .paymentFailed _ => .pastDue
  | .paid _ _ => .active

/-- The plan, if it writes one. -/
def plan : WebhookEvent → Option SubscriptionPlan
  | .updated obj => obj.plan
  | _ => none

/-- The cancellation time, if it writes that column. -/
def canceledAt : WebhookEvent → Option (Option DateTime)
  | .updated obj => some ((obj.canceledAt.filter (· ≠ 0)).map DateTime.fromTimestamp)
  | _ => none

/-- The period it advances to, if any. -/
def period : WebhookEvent → Option (DateTime × DateTime)
  | .updated obj => eventPeriod obj
  | .paymentFailed _ => none
  | .paid _ live => some (DateTime.fromTimestamp live.1, DateTime.fromTimestamp live.2)

/-- The bounds after an event. -/
noncomputable def raised (e : WebhookEvent) (b : DateTime × DateTime) : DateTime × DateTime :=
  match e.period with
  | some p => HighWater.raise b p
  | none => b

/-- The row after an event. -/
noncomputable def rowAfter (s : Subscription) (e : WebhookEvent) : Subscription :=
  { s with
    status := e.status
    plan := e.plan.getD s.plan
    canceledAt := e.canceledAt.getD s.canceledAt
    currentPeriodStart := (e.raised s.bounds).1
    currentPeriodEnd := (e.raised s.bounds).2 }

variable {orgId : UUID} {sid : String} {st st' : UsageState} {ctx : HandlerCtx}
  {sub s : Subscription} {e e' : WebhookEvent}

@[simp] theorem bounds_rowAfter : (rowAfter s e).bounds = e.raised s.bounds := rfl

@[simp] theorem stripeSubscriptionId_rowAfter :
    (rowAfter s e).stripeSubscriptionId = s.stripeSubscriptionId := rfl

/-- The guarded update raises the bounds. -/
theorem advance_eq_raise (p : DateTime × DateTime) :
    Subscription.advance p.1 p.2 s =
      { s with
        currentPeriodStart := (HighWater.raise s.bounds p).1
        currentPeriodEnd := (HighWater.raise s.bounds p).2 } := by
  unfold Subscription.advance HighWater.raise
  by_cases h : s.currentPeriodStart ≤ p.1 ∧ s.currentPeriodEnd ≤ p.2
  · have hle : s.bounds ≤ p := h
    rw [if_pos h, if_pos hle]
  · have hle : ¬ s.bounds ≤ p := h
    rw [if_neg h, if_neg hle]
    rfl

theorem updated_row {obj : SubscriptionEvent} (hid : obj.id = sid)
    (hrow : st.db.subscription = some sub) (hsid : sub.stripeSubscriptionId = some sid) :
    (st.handleSubscriptionUpdated obj ctx).db.subscription =
      some (rowAfter sub (.updated obj)) := by
  have hfound : st.db.getSubscriptionByStripeSubscription obj.id = some sub :=
    (getSubscriptionByStripeSubscription_eq_some _).mpr ⟨hrow, hid ▸ hsid⟩
  simp only [handleSubscriptionUpdated, hfound, warmSubCache_db, updateSubscription_subscription]
  cases hp : eventPeriod obj with
  | none => simp [hrow, rowAfter, raised, period, hp, status, plan, canceledAt, Subscription.bounds]
  | some p =>
    simp [hrow, advance_eq_raise, rowAfter, raised, period, hp, status, plan, canceledAt]

theorem paymentFailed_row {obj : InvoiceEvent} (hid : truthy obj.subscriptionId = some sid)
    (hrow : st.db.subscription = some sub) (hsid : sub.stripeSubscriptionId = some sid) :
    (st.handleInvoicePaymentFailed obj ctx).db.subscription =
      some (rowAfter sub (.paymentFailed obj)) := by
  have hfound : st.db.getSubscriptionByStripeSubscription sid = some sub :=
    (getSubscriptionByStripeSubscription_eq_some _).mpr ⟨hrow, hsid⟩
  simp [handleInvoicePaymentFailed, hid, hfound, hrow, rowAfter, raised, period, status, plan,
    canceledAt, Subscription.bounds]

theorem renew_row (obj : InvoiceEvent) (live : Int × Int) (hrow : st.db.subscription = some sub) :
    (st.renew orgId ctx (DateTime.fromTimestamp live.1)
      (DateTime.fromTimestamp live.2)).db.subscription = some (rowAfter sub (.paid obj live)) := by
  rw [(renew_frame ctx _ _).2, hrow]
  have hadv := advance_eq_raise (s := sub)
    (DateTime.fromTimestamp live.1, DateTime.fromTimestamp live.2)
  simp only [Option.map_some, hadv]
  rfl

theorem paid_row {obj : InvoiceEvent} {live : Int × Int}
    (hid : truthy obj.subscriptionId = some sid) (hrow : st.db.subscription = some sub)
    (hsid : sub.stripeSubscriptionId = some sid)
    (hok : st.handleInvoicePaid orgId obj live ctx = .ok st') :
    st'.db.subscription = some (rowAfter sub (.paid obj live)) := by
  have hfound : st.db.getSubscriptionByStripeSubscription sid = some sub :=
    (getSubscriptionByStripeSubscription_eq_some _).mpr ⟨hrow, hsid⟩
  simp only [handleInvoicePaid, hid, Option.bind_some, hfound] at hok
  split at hok
  · split at hok
    · cases hok
    · split at hok
      · cases hok
      next st₁ usage hsync =>
        -- the sync of the ending period leaves the subscription row alone
        obtain ⟨⟨start, stop⟩, hp⟩ : ∃ p, invoicePeriod obj = .ok p := by
          cases hp : invoicePeriod obj with
          | error err => simp [syncInvoicePeriod, hp] at hsync
          | ok p => exact ⟨p, rfl⟩
        have hrow₁ : st₁.db.subscription = some sub :=
          (syncInvoicePeriod_spec hp hsync).2.1.trans hrow
        split at hok
        · cases hok
          exact renew_row obj live hrow₁
        · split at hok
          · cases hok
          next db hstage =>
            cases hok
            refine renew_row obj live ?_
            rcases stage_cases hstage with rfl | ⟨u, customer, -, rfl⟩
            · simpa using hrow₁
            · simpa using hrow₁
  · cases hok
    exact renew_row obj live hrow

/-- **What an event does to its row.** -/
theorem handle_row (hid : e.IsOf sid) (hrow : st.db.subscription = some sub)
    (hsid : sub.stripeSubscriptionId = some sid) (hok : e.handle orgId st ctx = .ok st') :
    st'.db.subscription = some (rowAfter sub e) := by
  cases e with
  | updated obj =>
    cases hok
    exact updated_row hid hrow hsid
  | paymentFailed obj =>
    cases hok
    exact paymentFailed_row hid hrow hsid
  | paid obj live => exact paid_row hid hrow hsid hok

/-- An event of another subscription does nothing. -/
theorem handle_other (hid : e.IsOf sid) (hrow : st.db.subscription = some sub)
    (hsid : sub.stripeSubscriptionId ≠ some sid) (hok : e.handle orgId st ctx = .ok st') :
    st' = st := by
  have hnone : st.db.getSubscriptionByStripeSubscription sid = none := by
    simpa [getSubscriptionByStripeSubscription, hrow, Option.filter] using hsid
  cases e with
  | updated obj =>
    obtain rfl : obj.id = sid := hid
    simp only [handle, handleSubscriptionUpdated, hnone, Except.ok.injEq] at hok
    exact hok.symm
  | paymentFailed obj =>
    have hid : truthy obj.subscriptionId = some sid := hid
    simp only [handle, handleInvoicePaymentFailed, hid, Option.bind_some, hnone,
      Except.ok.injEq] at hok
    exact hok.symm
  | paid obj live =>
    have hid : truthy obj.subscriptionId = some sid := hid
    simp only [handle, handleInvoicePaid, hid, Option.bind_some, hnone, Except.ok.injEq] at hok
    exact hok.symm

/-- The handler raises in every state: a renewal invoice without a valid period. -/
def Refused : WebhookEvent → Prop
  | .paid obj _ => obj.billingReason = some renewalBillingReason ∧
      ∀ p, invoicePeriod obj ≠ .ok p
  | _ => False

/-- A state with the row `sub` and a closed record of the period `p`. -/
def closedState (sub : Subscription) (p : DateTime × DateTime) : UsageState where
  db := (BillingDb.empty.putUsage
    { UsageRecord.fresh sub.orgId p.1 p.2 with billed := true }).putSubscription sub
  cache := none
  redis := ⟨fun _ _ => none, fun _ => none⟩

/-- A refused event of a stored subscription is never handled. -/
theorem not_handle_of_refused (hid : e.IsOf sid) (hrow : st.db.subscription = some sub)
    (hsid : sub.stripeSubscriptionId = some sid) (href : e.Refused) :
    e.handle orgId st ctx ≠ .ok st' := by
  intro hok
  cases e with
  | updated obj => exact href
  | paymentFailed obj => exact href
  | paid obj live =>
    have hid : truthy obj.subscriptionId = some sid := hid
    have hfound : st.db.getSubscriptionByStripeSubscription sid = some sub :=
      (getSubscriptionByStripeSubscription_eq_some _).mpr ⟨hrow, hsid⟩
    obtain ⟨hreason, hperiod⟩ := href
    simp only [handle, handleInvoicePaid, hid, Option.bind_some, hfound, hreason, if_true] at hok
    cases hp : invoicePeriod obj with
    | ok p => exact hperiod p hp
    | error err =>
      simp only [syncInvoicePeriod, hp] at hok
      split at hok <;> cases hok

/-- An event that is not refused is handled in some state with the row. -/
theorem exists_handle (orgId : UUID) (sub : Subscription) (hacc : ¬ e.Refused) :
    ∃ st ctx st', st.db.subscription = some sub ∧ e.handle orgId st ctx = .ok st' := by
  let ctx : HandlerCtx := ⟨true, true, 0, "", []⟩
  cases e with
  | updated obj => exact ⟨closedState sub (0, 0), ctx, _, rfl, rfl⟩
  | paymentFailed obj => exact ⟨closedState sub (0, 0), ctx, _, rfl, rfl⟩
  | paid obj live =>
    by_cases hreason : obj.billingReason = some renewalBillingReason
    · obtain ⟨p, hp⟩ : ∃ p, invoicePeriod obj = .ok p := by
        by_contra hnone
        exact hacc ⟨hreason, fun p hp => hnone ⟨p, hp⟩⟩
      -- the record of the invoice's period is already billed there, so nothing is closed
      refine ⟨closedState sub p, ctx, ?_⟩
      have hsync : (closedState sub p).syncInvoicePeriod orgId obj =
          .ok (closedState sub p, { UsageRecord.fresh sub.orgId p.1 p.2 with billed := true }) := by
        simp [syncInvoicePeriod, hp, closedState, getCurrentUsageRecord, UsageRecord.fresh]
      simp only [handle, handleInvoicePaid, hreason, if_true, hsync]
      cases (truthy obj.subscriptionId).bind
          (closedState sub p).db.getSubscriptionByStripeSubscription with
      | none => exact ⟨_, rfl, rfl⟩
      | some row => exact ⟨_, rfl, rfl⟩
    · refine ⟨closedState sub (0, 0), ctx, ?_⟩
      simp only [handle, handleInvoicePaid, hreason, if_false]
      cases (truthy obj.subscriptionId).bind
          (closedState sub (0, 0)).db.getSubscriptionByStripeSubscription with
      | none => exact ⟨_, rfl, rfl⟩
      | some row => exact ⟨_, rfl, rfl⟩

/-! ## Deliveries -/

/-- **A delivery** of a list of events: each handler returns, from a row to a row.  Between
two events everything but the subscription row may change. -/
inductive Delivered (orgId : UUID) :
    Option Subscription → List WebhookEvent → Option Subscription → Prop
  | nil (row : Option Subscription) : Delivered orgId row [] row
  | cons {st st' : UsageState} {ctx : HandlerCtx} {e : WebhookEvent} {es : List WebhookEvent}
      {row row' : Option Subscription} : st.db.subscription = row →
      e.handle orgId st ctx = .ok st' → Delivered orgId st'.db.subscription es row' →
      Delivered orgId row (e :: es) row'

variable {es as bs : List WebhookEvent} {row : Option Subscription}

/-- **A delivery folds what its events write into the row.** -/
theorem delivered_row (h : Delivered orgId (some sub) es row) (hid : ∀ e ∈ es, e.IsOf sid)
    (hsid : sub.stripeSubscriptionId = some sid) : row = some (es.foldl rowAfter sub) := by
  induction es generalizing sub with
  | nil => cases h; rfl
  | cons e es ih =>
    obtain ⟨he, hes⟩ := List.forall_mem_cons.mp hid
    cases h with
    | cons hrow hok hrest =>
      rw [handle_row he hrow hsid hok] at hrest
      exact ih hrest hes hsid

/-- Events of another subscription leave the row. -/
theorem delivered_other (h : Delivered orgId (some sub) es row) (hid : ∀ e ∈ es, e.IsOf sid)
    (hsid : sub.stripeSubscriptionId ≠ some sid) : row = some sub := by
  induction es with
  | nil => cases h; rfl
  | cons e es ih =>
    obtain ⟨he, hes⟩ := List.forall_mem_cons.mp hid
    cases h with
    | cons hrow hok hrest =>
      rw [handle_other he hrow hsid hok, hrow] at hrest
      exact ih hrest hes

/-- Nothing that holds a refused event is delivered. -/
theorem not_delivered_of_refused (h : Delivered orgId (some sub) es row)
    (hid : ∀ e ∈ es, e.IsOf sid) (hsid : sub.stripeSubscriptionId = some sid) :
    ∀ e ∈ es, ¬ e.Refused := by
  induction es generalizing sub with
  | nil => exact fun e he => absurd he List.not_mem_nil
  | cons e es ih =>
    obtain ⟨he, hes⟩ := List.forall_mem_cons.mp hid
    cases h with
    | cons hrow hok hrest =>
      rw [handle_row he hrow hsid hok] at hrest
      refine List.forall_mem_cons.mpr ⟨fun href => ?_, ih hrest hes hsid⟩
      exact not_handle_of_refused he hrow hsid href hok

/-- Events that are not refused are delivered in any order. -/
theorem exists_delivered (hid : ∀ e ∈ es, e.IsOf sid) (hsid : sub.stripeSubscriptionId = some sid)
    (hacc : ∀ e ∈ es, ¬ e.Refused) : Delivered orgId (some sub) es (some (es.foldl rowAfter sub)) := by
  induction es generalizing sub with
  | nil => exact .nil _
  | cons e es ih =>
    obtain ⟨he, hes⟩ := List.forall_mem_cons.mp hid
    obtain ⟨haccE, haccEs⟩ := List.forall_mem_cons.mp hacc
    obtain ⟨st, ctx, st', hrow, hok⟩ := exists_handle orgId sub haccE
    refine .cons hrow hok ?_
    rw [handle_row he hrow hsid hok]
    exact ih hes hsid haccEs

/-! ## The bounds -/

theorem le_raised (e : WebhookEvent) (b : DateTime × DateTime) : b ≤ e.raised b := by
  unfold raised
  split
  · exact HighWater.le_raise b _
  · exact le_refl b

theorem bounds_le_foldl (es : List WebhookEvent) (s : Subscription) :
    s.bounds ≤ (es.foldl rowAfter s).bounds := by
  induction es generalizing s with
  | nil => exact le_refl _
  | cons e es ih => exact le_trans (le_raised e s.bounds) (ih (rowAfter s e))

/-- The periods of the events are totally ordered, componentwise. -/
def Chain (es : List WebhookEvent) : Prop :=
  ∀ e ∈ es, ∀ e' ∈ es, ∀ p p', e.period = some p → e'.period = some p' → p ≤ p' ∨ p' ≤ p

theorem raised_comm (hcomp : ∀ p p', e.period = some p → e'.period = some p' → p ≤ p' ∨ p' ≤ p)
    (b : DateTime × DateTime) : e'.raised (e.raised b) = e.raised (e'.raised b) := by
  unfold raised
  cases hp : e.period with
  | none => rfl
  | some p =>
    cases hp' : e'.period with
    | none => rfl
    | some p' => exact HighWater.raise_comm (hcomp p p' hp hp')

/-! ## The other columns -/

/-- **The condition.**  All the events write one status, those that write a plan write one
plan, and those that write the cancellation time write one. -/
def Agree (es : List WebhookEvent) : Prop :=
  ∀ e ∈ es, ∀ e' ∈ es, e.status = e'.status ∧
    (∀ p p', e.plan = some p → e'.plan = some p' → p = p') ∧
    (∀ c c', e.canceledAt = some c → e'.canceledAt = some c' → c = c')

/-- Two writes of one column, or none, leave the same value in either order. -/
theorem getD_comm {α : Type} {x y : Option α} (h : ∀ a b, x = some a → y = some b → a = b)
    (d : α) : y.getD (x.getD d) = x.getD (y.getD d) := by
  cases x with
  | none => rfl
  | some a =>
    cases y with
    | none => rfl
    | some b => exact (h a b rfl rfl).symm

/-- **Agreeing events with comparable periods commute on the row.** -/
theorem rowAfter_comm (hchain : Chain es) (hagree : Agree es) (he : e ∈ es) (he' : e' ∈ es)
    (s : Subscription) : rowAfter (rowAfter s e) e' = rowAfter (rowAfter s e') e := by
  obtain ⟨hstatus, hplan, hcanceled⟩ := hagree e he e' he'
  have hbounds := raised_comm (hchain e he e' he') s.bounds
  have hplans := getD_comm hplan s.plan
  have htimes := getD_comm hcanceled s.canceledAt
  unfold rowAfter
  simp only [Subscription.mk.injEq, true_and]
  exact ⟨hplans, hstatus.symm, congrArg Prod.fst hbounds, congrArg Prod.snd hbounds, htimes⟩

theorem foldl_perm (hchain : Chain es) (hagree : Agree es) (has : as.Perm es) (hbs : bs.Perm es)
    (s : Subscription) : as.foldl rowAfter s = bs.foldl rowAfter s := by
  refine (has.trans hbs.symm).foldl_eq' (fun x hx y hy z => ?_) s
  exact rowAfter_comm hchain hagree (has.subset hx) (has.subset hy) z

/-- An event delivered last decides the columns it writes. -/
theorem exists_last (he : e ∈ es) : ∃ as, (as ++ [e]).Perm es := by
  obtain ⟨as, bs, rfl⟩ := List.append_of_mem he
  refine ⟨as ++ bs, ?_⟩
  rw [List.append_assoc]
  exact (List.perm_append_comm).append_left as

/-- Rows that do not depend on the order are rows of agreeing events. -/
theorem agree_of_foldl {s : Subscription}
    (h : ∀ as bs : List WebhookEvent, as.Perm es → bs.Perm es →
      as.foldl rowAfter s = bs.foldl rowAfter s) : Agree es := by
  intro e he e' he'
  obtain ⟨as, has⟩ := exists_last he
  obtain ⟨bs, hbs⟩ := exists_last he'
  have hrow := h _ _ has hbs
  simp only [List.foldl_append, List.foldl_cons, List.foldl_nil] at hrow
  simp only [rowAfter, Subscription.mk.injEq] at hrow
  obtain ⟨-, hplan, hstatus, -, -, -, -, hcanceled⟩ := hrow
  refine ⟨hstatus, fun p p' hp hp' => ?_, fun c c' hc hc' => ?_⟩
  · simpa [hp, hp'] using hplan
  · simpa [hc, hc'] using hcanceled

/-! ## Every order -/

/-- **Delayed events never rewind the row.**  Any two orders in which the events are
delivered leave the same row, and the bounds never decrease on the way. -/
structure NeverRewinds (orgId : UUID) (sub : Subscription) (es : List WebhookEvent) : Prop where
  same : ∀ as bs row row', as.Perm es → bs.Perm es → Delivered orgId (some sub) as row →
    Delivered orgId (some sub) bs row' → row = row'
  forward : ∀ as bs cs s s', (as ++ bs ++ cs).Perm es → Delivered orgId (some sub) as (some s) →
    Delivered orgId (some s) bs (some s') → s.bounds ≤ s'.bounds

theorem forward_of_delivered {s' : Subscription} (hid : ∀ e ∈ es, e.IsOf sid)
    (h : Delivered orgId (some s) es (some s')) : s.bounds ≤ s'.bounds := by
  by_cases hsid : s.stripeSubscriptionId = some sid
  · obtain rfl := Option.some.inj (delivered_row h hid hsid)
    exact bounds_le_foldl es s
  · obtain rfl := Option.some.inj (delivered_other h hid hsid)
    exact le_refl _

/-- **Exactly when no order rewinds the row.**  For events of one subscription with totally
ordered periods, every order leaves the same row if and only if the events agree on what
they write, or the row is not of that subscription, or one of them is never handled. -/
theorem never_rewinds_iff {orgId : UUID} {sub : Subscription} {es : List WebhookEvent}
    {sid : String} (hid : ∀ e ∈ es, e.IsOf sid) (hchain : Chain es) :
    NeverRewinds orgId sub es ↔
      sub.stripeSubscriptionId ≠ some sid ∨ (∃ e ∈ es, e.Refused) ∨ Agree es := by
  have hidOf : ∀ {as : List WebhookEvent}, as.Perm es → ∀ e ∈ as, e.IsOf sid :=
    fun hperm e he => hid e (hperm.subset he)
  have hforward : ∀ as bs cs s s', (as ++ bs ++ cs).Perm es →
      Delivered orgId (some sub) as (some s) → Delivered orgId (some s) bs (some s') →
      s.bounds ≤ s'.bounds := by
    intro as bs cs s s' hperm _ hbs
    refine forward_of_delivered (fun e he => hidOf hperm e ?_) hbs
    exact List.mem_append_left _ (List.mem_append_right _ he)
  constructor
  · intro h
    by_contra hcon
    simp only [not_or, not_exists, not_and, not_not] at hcon
    obtain ⟨hsid, hacc, hnot⟩ := hcon
    refine hnot (agree_of_foldl (s := sub) fun as bs has hbs => ?_)
    -- every order can be delivered, so the rows of any two orders can be compared
    have hdelivered : ∀ {as : List WebhookEvent}, as.Perm es →
        Delivered orgId (some sub) as (some (as.foldl rowAfter sub)) := fun hperm =>
      exists_delivered (hidOf hperm) hsid fun e he => hacc e (hperm.subset he)
    exact Option.some.inj (h.same as bs _ _ has hbs (hdelivered has) (hdelivered hbs))
  · intro h
    refine ⟨fun as bs row row' has hbs hrow hrow' => ?_, hforward⟩
    by_cases hsid : sub.stripeSubscriptionId = some sid
    · rcases h with h | ⟨e, he, href⟩ | hagree
      · exact absurd hsid h
      · exact absurd href
          (not_delivered_of_refused hrow (hidOf has) hsid e (has.symm.subset he))
      · rw [delivered_row hrow (hidOf has) hsid, delivered_row hrow' (hidOf hbs) hsid,
          foldl_perm hchain hagree has hbs]
    · rw [delivered_other hrow (hidOf has) hsid, delivered_other hrow' (hidOf hbs) hsid]

/-! ## Two orders of two updates -/

/-- The row of a Pro subscription in its first period. -/
def firstRow : Subscription :=
  ⟨"org", .pro, .active, some "cus", some "sub", 0, DateTime.days 30, none⟩

/-- The payment of the first period is late. -/
def lateUpdate : WebhookEvent := .updated ⟨"sub", some "past_due", some .pro, none, some (1, 2592000)⟩

/-- The customer has paid, and moved to Startup with the second period. -/
def upgradeUpdate : WebhookEvent :=
  .updated ⟨"sub", some "active", some .startup, none, some (2592000, 5184000)⟩

/-- The invoice of the second period is paid. -/
def paidInvoice : WebhookEvent :=
  .paid ⟨"in", some "sub", some "subscription_update", none, none⟩ (2592000, 5184000)

/-- Two events in order form a chain. -/
theorem chain_pair {p p' : DateTime × DateTime} (hp : e.period = some p)
    (hp' : e'.period = some p') (hle : p ≤ p') : Chain [e, e'] := by
  intro x hx y hy q q' hq hq'
  simp only [List.mem_cons, List.not_mem_nil, or_false] at hx hy
  rcases hx with rfl | rfl <;> rcases hy with rfl | rfl <;>
    simp only [hp, hp', Option.some.injEq] at hq hq' <;> subst hq hq'
  · exact Or.inl (le_refl _)
  · exact Or.inl hle
  · exact Or.inr hle
  · exact Or.inl (le_refl _)

/-- Two events that agree leave the same row in both orders. -/
theorem never_rewinds_upgrade_paid :
    NeverRewinds "org" firstRow [upgradeUpdate, paidInvoice] := by
  refine (@never_rewinds_iff _ _ _ "sub" ?_ ?_).mpr (Or.inr (Or.inr ?_))
  · intro e he
    simp only [List.mem_cons, List.not_mem_nil, or_false] at he
    rcases he with rfl | rfl <;> rfl
  · exact chain_pair rfl rfl (le_refl _)
  · intro e he e' he'
    simp only [List.mem_cons, List.not_mem_nil, or_false] at he he'
    rcases he with rfl | rfl <;> rcases he' with rfl | rfl <;>
      simp [upgradeUpdate, paidInvoice, status, plan, canceledAt, mapStatus]

/-- A handler called without a lock in the way. -/
def quiet : HandlerCtx := ⟨true, true, 0, "", []⟩

/-- The rows two events leave from the first row, handled in turn. -/
def pairRow (e e' : WebhookEvent) : Option Subscription :=
  match e.handle "org" (closedState firstRow (0, 0)) quiet with
  | .error _ => none
  | .ok st =>
    match e'.handle "org" st quiet with
    | .error _ => none
    | .ok st => st.db.subscription

theorem delivered_pairRow (h : (pairRow e e').isSome) :
    Delivered "org" (some firstRow) [e, e'] (pairRow e e') := by
  unfold pairRow at h ⊢
  split at h
  · cases h
  next st hst =>
    split at h
    · cases h
    next st' hst' =>
      exact .cons rfl hst (.cons rfl hst' (.nil _))

/-- **An update delivered late takes the plan and the status back.**  Both orders end in the
second period, one on Startup and active, the other on Pro and past due. -/
theorem late_update_rewinds :
    (∀ e ∈ [lateUpdate, upgradeUpdate], e.IsOf "sub") ∧ Chain [lateUpdate, upgradeUpdate] ∧
      Delivered "org" (some firstRow) [lateUpdate, upgradeUpdate]
        (some { firstRow with
          plan := .startup
          currentPeriodStart := DateTime.days 30
          currentPeriodEnd := DateTime.days 60 }) ∧
      Delivered "org" (some firstRow) [upgradeUpdate, lateUpdate]
        (some { firstRow with
          status := .pastDue
          currentPeriodStart := DateTime.days 30
          currentPeriodEnd := DateTime.days 60 }) ∧
      ¬ NeverRewinds "org" firstRow [lateUpdate, upgradeUpdate] := by
  have hfirst : pairRow lateUpdate upgradeUpdate = some { firstRow with
      plan := .startup
      currentPeriodStart := DateTime.days 30
      currentPeriodEnd := DateTime.days 60 } := by decide +kernel
  have hsecond : pairRow upgradeUpdate lateUpdate = some { firstRow with
      status := .pastDue
      currentPeriodStart := DateTime.days 30
      currentPeriodEnd := DateTime.days 60 } := by decide +kernel
  have hd := delivered_pairRow (hfirst ▸ rfl : (pairRow lateUpdate upgradeUpdate).isSome)
  have hd' := delivered_pairRow (hsecond ▸ rfl : (pairRow upgradeUpdate lateUpdate).isSome)
  rw [hfirst] at hd
  rw [hsecond] at hd'
  refine ⟨fun e he => ?_, chain_pair rfl rfl (by decide), hd, hd', fun h => ?_⟩
  · simp only [List.mem_cons, List.not_mem_nil, or_false] at he
    rcases he with rfl | rfl <;> rfl
  · have hsame := h.same _ _ _ _ (.refl _) (.swap ..) hd hd'
    exact absurd hsame (by decide)

end WebhookEvent
end PandaProbe
