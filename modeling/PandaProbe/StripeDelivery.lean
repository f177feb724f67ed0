import PandaProbe.BillingReporting
import PandaProbe.GuardedRun

/-! # Delivering one report to Stripe

`BillingReportingService.deliver` as a machine: any number of workers run its loop on
one report row, next to Stripe and a network that loses, delays, reorders and repeats.

A worker holds the row lock from `lock_report` to its next commit or rollback, and it
keeps the copy of the row it read.  It stops at every point where the source waits for
something outside (`Pc`), and it may crash, or raise, at any of them: its transaction
rolls back and what it sent stays on its way.

Of Stripe the machine has what `deliver` relies on: invoices that leave draft for good,
a memory of idempotency keys that lasts at least a day from the first use, and the
items created.  A request is handled at most `latency` after the clock reading its
worker compared with the intent; the client is configured with 20 second timeouts and
two retries.
-/
namespace PandaProbe

/-- `_SAFE_RETRY_AGE`. -/
def safeRetryAge : Int := DateTime.hours 23

/-- How long Stripe remembers an idempotency key, at least, from its first use. -/
def keyLifetime : Int := DateTime.hours 24

/-- An invoice item at Stripe. -/
structure StripeItem where
  id : String
  metadata : ChargeMetadata
  amount : Int
  currency : String
  created : DateTime
  deriving DecidableEq, Repr

/-- A copy of a create request on its way to Stripe, with the clock reading of the worker
that sent it. -/
structure Sent where
  params : ChargeRequest
  sentAt : DateTime
  deriving DecidableEq, Repr

/-- The category a request charges. -/
def Sent.category (x : Sent) : UsageCategory := x.params.metadata.category

/-- What Stripe decides about a create request it could carry out.  A refusal is an
`InvalidRequestError`; `blamesInvoice` says that its code is `invoice_not_editable` or
its parameter `invoice`. -/
inductive Verdict
  | accept (itemId : String)
  | refuse (blamesInvoice : Bool)

/-- What the caller of `stripe.InvoiceItem.create` gets. -/
inductive Response
  | item (item : StripeItem)
  | invalidRequest (blamesInvoice : Bool)

/-- Stripe and the network before it: which invoices are in draft, the keys remembered
with their first use and first successful result, the items, and the requests on their
way. -/
structure Stripe where
  draft : String → Bool
  memo : String → Option (DateTime × StripeItem)
  items : List StripeItem
  sent : List Sent

namespace Stripe
variable (stripe : Stripe)

/-- The invoice a request names is in draft, or it names none. -/
def editable (params : ChargeRequest) : Bool :=
  match truthy params.invoice with
  | some i => stripe.draft i
  | none => true

/-- Stripe handles one copy of a create request.  A remembered key returns its first
result; a request naming an invoice that has left draft is rejected; every other one is
accepted or refused.  A refusal that blames the invoice holds for the copies of the
request that are on their way as well. -/
def create (now : DateTime) (x : Sent) (verdict : Verdict) : Stripe × Response :=
  match stripe.memo x.params.idempotencyKey with
  | some (_, item) => ({ stripe with sent := stripe.sent.erase x }, .item item)
  | none =>
    if stripe.editable x.params then
      match verdict with
      | .accept itemId =>
        let item : StripeItem :=
          ⟨itemId, x.params.metadata, x.params.amount, x.params.currency, now⟩
        ({ stripe with
            memo := Function.update stripe.memo x.params.idempotencyKey (some (now, item))
            items := item :: stripe.items
            sent := stripe.sent.erase x }, .item item)
      | .refuse true =>
        let others := stripe.sent.filter
          (fun y => y.params.idempotencyKey ≠ x.params.idempotencyKey)
        ({ stripe with sent := others }, .invalidRequest true)
      | .refuse false => ({ stripe with sent := stripe.sent.erase x }, .invalidRequest false)
    else ({ stripe with sent := stripe.sent.erase x }, .invalidRequest true)

/-- The items that charge a category of a report. -/
def charges (reportId : UUID) (c : UsageCategory) : List StripeItem :=
  stripe.items.filter (fun x => x.metadata.ppReportId = reportId ∧ x.metadata.category = c)

end Stripe

/-- What a scan for a prior success can end with. -/
inductive Recovered
  | found (item : StripeItem)
  | mismatch
  | nothing

/-- `_find_existing`: the first of at most 1000 listed items that carries the report's id
and the category must match the reserved charge. -/
def findExisting (report : BillingReport) (c : UsageCategory) (listed : List StripeItem) :
    Recovered :=
  match (listed.take 1000).find? (fun x => x.metadata.ppReportId = report.id ∧
      x.metadata.category = c) with
  | none => .nothing
  | some item =>
    if some item.amount ≠ (report.requests c).map ChargeRequest.amount ∨ item.currency ≠ "usd" then
      .mismatch
    else .found item

/-- Whether carryover needs a continuing subscription and finds none: the invoice is gone,
the report was staged under a subscription, and the row read is missing, another
one's, or canceled. -/
def noContinuing (report : BillingReport) (params : ChargeRequest) (sub : Option Subscription) :
    Bool :=
  (truthy params.invoice).isNone && (truthy report.stripeSubscriptionId).isSome &&
    match sub with
    | none => true
    | some s => s.stripeSubscriptionId ≠ report.stripeSubscriptionId || s.status = .canceled

/-- Where a worker is in `deliver`: outside a transaction; with the row locked and read;
choosing the destination of a first request, or about to commit the intent; scanning for
a prior success; waiting for a create; with its response; about to commit a carryover. -/
inductive Pc
  | idle
  | locked (report : BillingReport)
  | choosing (report : BillingReport) (c : UsageCategory) (params : ChargeRequest)
      (now : DateTime)
  | chosen (report : BillingReport) (c : UsageCategory) (params : ChargeRequest)
      (now : DateTime)
  | scanning (report : BillingReport) (c : UsageCategory)
  | calling (report : BillingReport) (c : UsageCategory) (request : Sent)
  | answered (report : BillingReport) (c : UsageCategory) (item : StripeItem)
  | rejected (report : BillingReport) (c : UsageCategory) (params : ChargeRequest)
      (blamesInvoice : Bool)
  | carrying (report : BillingReport) (c : UsageCategory) (params : ChargeRequest)

/-- The report row, the worker that has it locked, where every worker is, and Stripe. -/
structure Delivery where
  clock : DateTime
  row : BillingReport
  holder : Option Nat
  pc : Nat → Pc
  stripe : Stripe

/-- What can happen next. -/
inductive DeliveryAct
  | tick (d : Nat)
  | lock (w : Nat)
  | begin (w : Nat)
  | retrieve (w : Nat)
  | commitIntent (w : Nat) (sub : Option Subscription)
  | scan (w : Nat) (listed : List StripeItem)
  | record (w : Nat)
  | resolve (w : Nat)
  | carry (w : Nat)
  | crash (w : Nat)
  | noteError (message : String)
  | repeatSent (x : Sent)
  | handle (x : Sent) (verdict : Verdict) (receiver : Option Nat)
  | finalize (invoice : String)
  | forget (key : String)

namespace Delivery
variable (s : Delivery) (w : Nat)

/-- The worker moves on inside its transaction. -/
def goto (p : Pc) : Delivery := { s with pc := Function.update s.pc w p }

/-- The worker's transaction ends and leaves the row as given. -/
def release (row : BillingReport) : Delivery :=
  { s with row := row, holder := none, pc := Function.update s.pc w .idle }

/-- `lock_report`, skipping a locked row. -/
def lock : Option Delivery :=
  match s.pc w, s.holder with
  | .idle, none => some { s with holder := some w, pc := Function.update s.pc w (.locked s.row) }
  | _, _ => none

/-- The loop body of `deliver` up to its first call outside. -/
def start (report : BillingReport) : Delivery :=
  if report.status ≠ .pending then s.release w s.row
  else
    match report.nextCategory with
    | none => s.release w report.confirm
    | some c =>
      match report.requests c with
      | none => s.release w s.row
      | some params =>
        match report.attemptedAt c with
        | none => s.goto w (.choosing report c params s.clock)
        | some attempted =>
          if s.clock - attempted ≥ safeRetryAge then s.goto w (.scanning report c)
          else
            let request : Sent := ⟨params, s.clock⟩
            let stripe := { s.stripe with sent := request :: s.stripe.sent }
            goto { s with stripe := stripe } w (.calling report c request)

/-- Choose the destination of a first request: an invoice that has left draft is dropped. -/
def retrieve : Option Delivery :=
  match s.pc w with
  | .choosing report c params now =>
    let params := if s.stripe.editable params then params else params.dropInvoice
    some (s.goto w (.chosen report c params now))
  | _ => none

/-- Persist the intent, or send the report to review. -/
def commitIntent (sub : Option Subscription) : Option Delivery :=
  match s.pc w with
  | .chosen report c params now =>
    if noContinuing report params sub then
      some (s.release w
        (report.review "No continuing subscription to collect carryover; reconcile explicitly."))
    else some (s.release w (report.attempt c params now))
  | _ => none

/-- Beyond the safe window: recover a known item, or send the report to review.  What is
listed of this report's items is at Stripe. -/
def scan (listed : List StripeItem) : Option Delivery :=
  match s.pc w with
  | .scanning report c =>
    if ∀ x ∈ listed, x.metadata.ppReportId = report.id → x ∈ s.stripe.items then
      match findExisting report c listed with
      | .found item => some (s.release w (report.recordItem c item.id))
      | .mismatch => some (s.release w
          (report.review "Recovered Stripe item does not match the reserved charge."))
      | .nothing => some (s.release w (report.review
          "Stripe outcome unknown beyond safe idempotency window; do not blindly charge again."))
    else none
  | _ => none

/-- Record the item of a successful create. -/
def record : Option Delivery :=
  match s.pc w with
  | .answered report c item => some (s.release w (report.recordItem c item.id))
  | _ => none

/-- After a rejection: carry over if the invoice is to blame and has left draft, else
raise. -/
def resolve : Option Delivery :=
  match s.pc w with
  | .rejected report c params blamesInvoice =>
    if blamesInvoice ∧ s.stripe.editable params = false then
      some (s.goto w (.carrying report c params))
    else some (s.release w s.row)
  | _ => none

/-- Commit the carryover of a rejected request. -/
def carry : Option Delivery :=
  match s.pc w with
  | .carrying report c params => some (s.release w (report.carryOver c params))
  | _ => none

/-- A worker in a transaction crashes or raises: the transaction rolls back. -/
def crash : Option Delivery :=
  match s.pc w with
  | .idle => none
  | _ => some (s.release w s.row)

/-- `deliver_safely` notes the error of a run that raised. -/
def noteError (message : String) : Option Delivery :=
  match s.holder with
  | none =>
    if s.row.status = .pending then some { s with row := { s.row with lastError := some message } }
    else some s
  | some _ => none

/-- The response of a create reaches a worker that waits for it, or nobody. -/
def respond (x : Sent) (response : Response) : Option Nat → Option Delivery
  | none => some s
  | some w =>
    match s.pc w with
    | .calling report c request =>
      if request = x then
        match response with
        | .item item => some (s.goto w (.answered report c item))
        | .invalidRequest blamesInvoice =>
          some (s.goto w (.rejected report c request.params blamesInvoice))
      else none
    | _ => none

/-- Stripe handles a copy of a request in time. -/
def handle (latency : Int) (x : Sent) (verdict : Verdict) (receiver : Option Nat) :
    Option Delivery :=
  if x ∈ s.stripe.sent ∧ s.clock ≤ x.sentAt + latency then
    let (stripe, response) := s.stripe.create s.clock x verdict
    respond { s with stripe := stripe } x response receiver
  else none

/-- One step of the machine. -/
def step (latency : Int) : DeliveryAct → Option Delivery
  | .tick d => some { s with clock := s.clock + d }
  | .lock w => s.lock w
  | .begin w =>
    match s.pc w with
    | .locked report => some (s.start w report)
    | _ => none
  | .retrieve w => s.retrieve w
  | .commitIntent w sub => s.commitIntent w sub
  | .scan w listed => s.scan w listed
  | .record w => s.record w
  | .resolve w => s.resolve w
  | .carry w => s.carry w
  | .crash w => s.crash w
  | .noteError message => s.noteError message
  | .repeatSent x =>
    if x ∈ s.stripe.sent then
      some { s with stripe := { s.stripe with sent := x :: s.stripe.sent } }
    else none
  | .handle x verdict receiver => s.handle latency x verdict receiver
  | .finalize invoice =>
    some { s with stripe := { s.stripe with draft := Function.update s.stripe.draft invoice false } }
  | .forget key =>
    match s.stripe.memo key with
    | some (first, _) =>
      if first + keyLifetime ≤ s.clock then
        some { s with stripe := { s.stripe with memo := Function.update s.stripe.memo key none } }
      else none
    | none => none

/-- A report as `stage` has just stored it: nobody works on it, and Stripe has none of its
items and requests. -/
structure Staged (s : Delivery) : Prop where
  row : ∃ usage previous args customer, s.row = stageReport usage previous args customer
  unlocked : s.holder = none
  idle : ∀ w, s.pc w = .idle
  unsent : s.stripe.sent = []
  uncharged : ∀ x ∈ s.stripe.items, x.metadata.ppReportId ≠ s.row.id

end Delivery
end PandaProbe
