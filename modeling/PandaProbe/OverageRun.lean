import PandaProbe.GuardedRun
import PandaProbe.Settlement

/-! # The closing handlers next to the overage reporter

`handle_checkout_completed`, `handle_invoice_paid` and `handle_subscription_deleted`
interleaved with the periodic overage reporter and the periodic usage sync, any number
of each.  A task stops wherever another one can come between (`Task`): after it has read
the subscription row, after it has taken the overage lock, between its commits.  What a
transaction writes takes effect at its commit, on the rows as they are then and with
what the task has read before.

Beside the rows the machine notes what each usage record was incurred under (`origin`):
the Stripe subscription and the plan of the period it was created for.
-/
namespace PandaProbe

/-- What a usage record is incurred under. -/
structure Incurred where
  subscriptionId : Option String
  plan : SubscriptionPlan
  deriving DecidableEq, Repr

/-- What the records of a subscription are incurred under. -/
def Subscription.incurs (sub : Subscription) : Incurred := ⟨sub.stripeSubscriptionId, sub.plan⟩

/-- Where a task is.  The reporter: with the overage lock, then with the row it read.  The
usage sync: with the row it read.  An `invoice.paid` handler: with the row it read, then
with the lock, then with the ending period and whether its record is closed.  A deletion:
with the row it read; with its report committed and the lock in hand; with the lock
released; with the lock refused.  `done` has committed and still holds the lock. -/
inductive Task
  | idle
  | reporting
  | reportRead (sub : Subscription)
  | syncRead (sub : Subscription)
  | paying (sub : Subscription) (obj : InvoiceEvent) (live : Int × Int)
  | paidLocked (sub : Subscription) (obj : InvoiceEvent) (live : Int × Int)
  | paidRead (sub : Subscription) (obj : InvoiceEvent) (live : Int × Int)
      (start stop : DateTime) (closed : Bool)
  | deleting (sub : Subscription)
  | delivering (sub : Subscription)
  | finalizing (sub : Subscription)
  | skipped (sub : Subscription)
  | done

/-- What can happen next to an organization. -/
inductive OverageAct
  | createOrganization (plan : SubscriptionPlan) (now : DateTime)
  | traffic (redis : UsageStore) (cache : Option Subscription)
  | deliver (reportId : UUID) (writes : List DeliveryWrite)
  | expireLock
  | acquire (w : Nat)
  | readSubscription (w : Nat)
  | commitReport (w : Nat) (ctx : HandlerCtx)
  | release (w : Nat)
  | readSync (w : Nat)
  | commitSync (w : Nat)
  | checkout (obj : CheckoutEvent) (ctx : HandlerCtx)
  | readPaid (w : Nat) (obj : InvoiceEvent) (live : Int × Int)
  | lockPaid (w : Nat)
  | readUsage (w : Nat)
  | commitPaid (w : Nat) (ctx : HandlerCtx)
  | readDeleted (w : Nat) (subscriptionId : String)
  | reportDeleted (w : Nat) (ctx : HandlerCtx)
  | commitDeleted (w : Nat) (ctx : HandlerCtx)
  | crash (w : Nat)

namespace UsageState
variable (orgId : UUID) (st : UsageState)

/-- The first commit of the reporter and of a deletion, under the subscription they read:
sync its current period and reserve what is new. -/
def reserve (sub : Subscription) (ctx : HandlerCtx) : Except BillingError UsageState :=
  let st := st.syncToDatabase orgId (some (sub.currentPeriodStart, sub.currentPeriodEnd))
  match sub.stripeCustomerId with
  | none => .ok st
  | some _ =>
    match st.db.stage sub.currentPeriodStart (BillingDb.stageArgs sub ctx none none) with
    | .error e => .error e
    | .ok db => .ok { st with db := db }

/-- The close of an invoice's ending period whose record was read as open. -/
def closePaid (sub : Subscription) (obj : InvoiceEvent) (ctx : HandlerCtx)
    (start stop : DateTime) : Except BillingError UsageState :=
  let st := st.syncToDatabase orgId (some (start, stop))
  match st.db.getCurrentUsageRecord start with
  | none => .error .historyMissing
  | some _ =>
    match st.db.stage start (BillingDb.stageArgs sub ctx none (some obj.id)) with
    | .error e => .error e
    | .ok db => .ok { st with db := db.markBilled start (some obj.id) }

/-- The last commit of a deletion: close the old period, downgrade, start a new one. -/
def downgrade (sub : Subscription) (ctx : HandlerCtx) : Except BillingError UsageState :=
  let db := (st.closeOldPeriod sub).updateSubscription (downgraded ctx.now)
  match db.createUsageRecord orgId ctx.now (ctx.now + DateTime.days 30) with
  | .error e => .error e
  | .ok db => .ok { st with db := db }

end UsageState

/-- The organization, the task that holds the overage lock, where every task is, and what
each record was incurred under. -/
structure OverageRun where
  st : UsageState
  lock : Option Nat
  task : Nat → Task
  origin : DateTime → Option Incurred

namespace OverageRun
variable (orgId : UUID) (s : OverageRun) (w : Nat)

/-- Note what new records are incurred under. -/
def noteOrigin (o : Incurred) (db : BillingDb) (origin : DateTime → Option Incurred) :
    DateTime → Option Incurred :=
  fun t => if (db.usage t).isSome then some ((origin t).getD o) else origin t

/-- Commit a state whose new records are incurred under `o`. -/
def store (st : UsageState) (o : Incurred) : OverageRun :=
  { s with st := st, origin := noteOrigin o st.db s.origin }

/-- The task moves on. -/
def goto (t : Task) : OverageRun := { s with task := Function.update s.task w t }

/-- `release_overage_lock`: only the owner's lock is deleted. -/
def unlock : OverageRun := if s.lock = some w then { s with lock := none } else s

/-- The task raised: its transaction rolls back and its lock is released. -/
def fail : OverageRun := (s.unlock w).goto w .idle

/-- A commit that may raise instead. -/
def commit (r : Except BillingError UsageState) (o : Incurred) (t : Task) : OverageRun :=
  match r with
  | .error _ => s.fail w
  | .ok st => (s.store st o).goto w t

/-- The reporter takes the overage lock, if it is free. -/
def acquire : Option OverageRun :=
  match s.task w, s.lock with
  | .idle, none => some (goto { s with lock := some w } w .reporting)
  | _, _ => none

/-- The reporter reads the subscription row. -/
def readSubscription : Option OverageRun :=
  match s.task w with
  | .reporting =>
    match s.st.db.subscription with
    | some sub => some (s.goto w (.reportRead sub))
    | none => some (s.goto w .done)
  | _ => none

/-- The reporter commits. -/
def commitReport (ctx : HandlerCtx) : Option OverageRun :=
  match s.task w with
  | .reportRead sub => some (s.commit w (s.st.reserve orgId sub ctx) sub.incurs .done)
  | _ => none

/-- The reporter, a renewal or a deletion releases the overage lock. -/
def release : Option OverageRun :=
  match s.task w with
  | .done => some (s.fail w)
  | .delivering sub => some ((s.unlock w).goto w (.finalizing sub))
  | _ => none

/-- The usage sync reads the subscription row. -/
def readSync : Option OverageRun :=
  match s.task w, s.st.db.subscription with
  | .idle, some sub => some (s.goto w (.syncRead sub))
  | _, _ => none

/-- The usage sync commits. -/
def commitSync : Option OverageRun :=
  match s.task w with
  | .syncRead sub =>
    let st := s.st.syncToDatabase orgId (some (sub.currentPeriodStart, sub.currentPeriodEnd))
    some ((s.store st sub.incurs).goto w .idle)
  | _ => none

/-- An `invoice.paid` handler finds its subscription and retrieves Stripe's. -/
def readPaid (obj : InvoiceEvent) (live : Int × Int) : Option OverageRun :=
  match s.task w with
  | .idle =>
    match (truthy obj.subscriptionId).bind s.st.db.getSubscriptionByStripeSubscription with
    | none => some s
    | some sub => some (s.goto w (.paying sub obj live))
  | _ => none

/-- A renewal needs the overage lock. -/
def lockPaid : Option OverageRun :=
  match s.task w with
  | .paying sub obj live =>
    if obj.billingReason = some renewalBillingReason then
      match s.lock with
      | none => some (goto { s with lock := some w } w (.paidLocked sub obj live))
      | some _ => some (s.goto w .idle)
    else none
  | _ => none

/-- A renewal looks at the record of the period it ends. -/
def readUsage : Option OverageRun :=
  match s.task w with
  | .paidLocked sub obj live =>
    match invoicePeriod obj with
    | .error _ => some (s.fail w)
    | .ok (start, stop) =>
      match s.st.db.getCurrentUsageRecord start with
      | some usage =>
        if usage.periodEnd ≠ stop then some (s.fail w)
        else some (s.goto w (.paidRead sub obj live start stop usage.billed))
      | none => some (s.goto w (.paidRead sub obj live start stop false))
  | _ => none

/-- An `invoice.paid` handler commits. -/
def commitPaid (ctx : HandlerCtx) : Option OverageRun :=
  match s.task w with
  | .paying sub obj live =>
    if obj.billingReason = some renewalBillingReason then none
    else
      let st := s.st.renew orgId ctx (DateTime.fromTimestamp live.1) (DateTime.fromTimestamp live.2)
      some ((s.store st sub.incurs).goto w .idle)
  | .paidRead sub obj live start stop closed =>
    let closing := if closed then .ok s.st else s.st.closePaid orgId sub obj ctx start stop
    let renewed := closing.map (fun st =>
      st.renew orgId ctx (DateTime.fromTimestamp live.1) (DateTime.fromTimestamp live.2))
    some (s.commit w renewed sub.incurs .done)
  | _ => none

/-- A deletion finds its subscription. -/
def readDeleted (subscriptionId : String) : Option OverageRun :=
  match s.task w with
  | .idle =>
    match s.st.db.getSubscriptionByStripeSubscription subscriptionId with
    | none => some s
    | some sub => some (s.goto w (.deleting sub))
  | _ => none

/-- A deletion finalizes the overages of a pay-as-you-go subscription, if the overage lock
is free.  What it synced while the lock was refused is committed with its last write. -/
def reportDeleted (ctx : HandlerCtx) : Option OverageRun :=
  match s.task w with
  | .deleting sub =>
    if (getPlanConfig sub.plan).payAsYouGo ∧ sub.stripeCustomerId.isSome then
      match s.lock with
      | some _ => some (s.goto w (.skipped sub))
      | none =>
        some (commit { s with lock := some w } w (s.st.reserve orgId sub ctx) sub.incurs
          (.delivering sub))
    else some (s.goto w (.finalizing sub))
  | _ => none

/-- A deletion commits its downgrade. -/
def commitDeleted (ctx : HandlerCtx) : Option OverageRun :=
  match s.task w with
  | .finalizing sub => some (s.commit w (s.st.downgrade orgId sub ctx) ⟨none, .hobby⟩ .idle)
  | .skipped sub =>
    let st := s.st.syncToDatabase orgId (some (sub.currentPeriodStart, sub.currentPeriodEnd))
    match st.downgrade orgId sub ctx with
    | .error _ => some (s.fail w)
    | .ok st' => some (((s.store st sub.incurs).store st' ⟨none, .hobby⟩).goto w .idle)
  | _ => none

/-- One step. -/
def step : OverageAct → Option OverageRun
  | .createOrganization plan now =>
    match s.st.createOrganization orgId plan now with
    | .error _ => some s
    | .ok st => some (s.store st ⟨none, plan⟩)
  | .traffic redis cache => some { s with st := { s.st with redis := redis, cache := cache } }
  | .deliver reportId writes =>
    some { s with st := { s.st with db := s.st.db.deliver reportId writes } }
  | .expireLock => some { s with lock := none }
  | .acquire w => s.acquire w
  | .readSubscription w => s.readSubscription w
  | .commitReport w ctx => s.commitReport orgId w ctx
  | .release w => s.release w
  | .readSync w => s.readSync w
  | .commitSync w => s.commitSync orgId w
  | .checkout obj ctx =>
    some (s.store (s.st.handleCheckoutCompleted orgId obj ctx)
      ⟨some obj.subscriptionId, obj.plan⟩)
  | .readPaid w obj live => s.readPaid w obj live
  | .lockPaid w => s.lockPaid w
  | .readUsage w => s.readUsage w
  | .commitPaid w ctx => s.commitPaid orgId w ctx
  | .readDeleted w subscriptionId => s.readDeleted w subscriptionId
  | .reportDeleted w ctx => s.reportDeleted orgId w ctx
  | .commitDeleted w ctx => s.commitDeleted orgId w ctx
  | .crash w => some (s.goto w .idle)

/-- Nothing has happened yet. -/
def initial : OverageRun :=
  ⟨⟨BillingDb.empty, none, ⟨fun _ _ => none, fun _ => none⟩⟩, none, fun _ => .idle, fun _ => none⟩

end OverageRun
end PandaProbe
