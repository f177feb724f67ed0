import PandaProbe.StripeDelivery
import PandaProbe.UsageLedger

/-! # Staging and delivering all reports of an organization

`stage`, `deliver` and `deliver_safely` on the whole table of billing reports: any number
of workers, each in the loop of `deliver` for a report of its own choice, while `stage`
adds reports and the usage sync writes counters.

Two kinds of row locks order the writes.  A worker holds the lock of its report from
`lock_report` to its next commit or rollback, and `lock_report` skips a locked row.
`stage`, `finish` and the counter writes hold the lock of the usage row; `finish` reads
the record's reports under it, and other reports may still move before it commits.

What Stripe answers is up to the action, and every worker may raise wherever it waits for
the database or for Stripe: its transaction rolls back, and a `deliver_safely` goes on to
note the error.
-/
namespace PandaProbe

/-- Where a worker is: outside; between two rounds of the loop of `deliver`; inside a round;
with no category left; with the usage row and the record's reports read by `finish`; in the
error handler of `deliver_safely`, before and after it has locked the report again.  The
flag says whether the call is a `deliver_safely`. -/
inductive Post
  | idle
  | looping (safely : Bool) (reportId : UUID)
  | delivering (safely : Bool) (p : Pc)
  | confirming (safely : Bool) (report : BillingReport)
  | finishing (safely : Bool) (report : BillingReport) (usage : UsageRecord)
      (read : List BillingReport)
  | failed (reportId : UUID)
  | noting (report : BillingReport)

/-- The copy of the report row a worker holds inside a round. -/
def Pc.copy : Pc → Option BillingReport
  | .idle => none
  | .locked report => some report
  | .choosing report _ _ _ => some report
  | .chosen report _ _ _ => some report
  | .scanning report _ => some report
  | .calling report _ _ => some report
  | .answered report _ _ => some report
  | .rejected report _ _ _ => some report
  | .carrying report _ _ => some report

/-- The copy of the report row a worker holds. -/
def Post.copy : Post → Option BillingReport
  | .delivering _ p => p.copy
  | .confirming _ report => some report
  | .finishing _ report _ _ => some report
  | .noting report => some report
  | _ => none

/-- The usage row a worker holds. -/
def Post.period : Post → Option DateTime
  | .finishing _ report _ _ => some report.usageRecordId
  | _ => none

/-- The rows, their locks, and where every worker is. -/
structure ReportDesk where
  db : BillingDb
  rowLock : UUID → Option Nat
  usageLock : DateTime → Option Nat
  post : Nat → Post

/-- What can happen next. -/
inductive DeskAct
  | stage (periodStart : DateTime) (a : StageArgs)
  | upsertUsageCounters (orgId : UUID) (start stop : DateTime) (counts : UsageCategory → Int)
  | markBilled (start : DateTime) (invoiceId : Option String)
  | deliver (w : Nat) (safely : Bool) (reportId : UUID)
  | lock (w : Nat)
  | begin (w : Nat) (now : DateTime)
  | retrieve (w : Nat) (draft : Bool)
  | commitIntent (w : Nat) (sub : Option Subscription)
  | scan (w : Nat) (listed : List StripeItem)
  | answer (w : Nat) (response : Response)
  | record (w : Nat)
  | resolve (w : Nat) (draft : Bool)
  | carry (w : Nat)
  | lockUsage (w : Nat)
  | finish (w : Nat)
  | raise (w : Nat)
  | relock (w : Nat)
  | note (w : Nat) (message : String)

/-- The acts of a `deliver_safely` whose `deliver` has raised. -/
def DeskAct.Failing : DeskAct → Prop
  | .raise _ => True
  | .relock _ => True
  | .note _ _ => True
  | _ => False

/-- `UPDATE billing_reports … WHERE id = …`: the row with the report's id is replaced. -/
def BillingDb.putReport (db : BillingDb) (r : BillingReport) : BillingDb :=
  { db with reports := db.reports.map (fun q => if q.id = r.id then r else q) }

@[simp] theorem BillingDb.putReport_usage (db : BillingDb) (r : BillingReport) :
    (db.putReport r).usage = db.usage := rfl

@[simp] theorem BillingDb.putReport_reports (db : BillingDb) (r : BillingReport) :
    (db.putReport r).reports = db.reports.map (fun q => if q.id = r.id then r else q) := rfl

/-- The reports of a usage record. -/
def BillingDb.reportsFor (db : BillingDb) (t : DateTime) : List BillingReport :=
  db.reports.filter (fun r => r.usageRecordId = t)

namespace ReportDesk
variable (s : ReportDesk) (w : Nat)

/-- The worker moves on. -/
def goto (p : Post) : ReportDesk := { s with post := Function.update s.post w p }

/-- The worker's transaction on a report ends without a change. -/
def leave (reportId : UUID) (p : Post) : ReportDesk :=
  { s with rowLock := Function.update s.rowLock reportId none, post := Function.update s.post w p }

/-- The worker's transaction on a report commits a new row. -/
def commitRow (row : BillingReport) (p : Post) : ReportDesk :=
  leave { s with db := s.db.putReport row } w row.id p

/-- `stage`, with the commit of its caller.  It waits for the usage row; a used report id
violates the primary key. -/
def stage (periodStart : DateTime) (a : StageArgs) : Option ReportDesk :=
  match s.usageLock periodStart with
  | some _ => none
  | none =>
    if s.db.reports.any (fun r => r.id = a.reportId) then some s
    else
      match s.db.stage periodStart a with
      | .error _ => some s
      | .ok db => some { s with db := db }

/-- A write of a usage row by the sync or a handler, which waits for the row. -/
def writeUsage (start : DateTime) (f : BillingDb → BillingDb) : Option ReportDesk :=
  match s.usageLock start with
  | some _ => none
  | none => some { s with db := f s.db }

/-- `lock_report` at the head of the loop: a locked or missing row ends the call. -/
def lock : Option ReportDesk :=
  match s.post w with
  | .looping safely id =>
    match s.rowLock id, s.db.reports.find? (fun r => r.id = id) with
    | none, some report =>
      some (goto { s with rowLock := Function.update s.rowLock id (some w) } w
        (.delivering safely (.locked report)))
    | _, _ => some (s.goto w .idle)
  | _ => none

/-- The loop body of `deliver` up to its first call outside. -/
def start (safely : Bool) (report : BillingReport) (now : DateTime) : ReportDesk :=
  if report.status ≠ .pending then s.leave w report.id .idle
  else
    match report.nextCategory with
    | none => s.goto w (.confirming safely report)
    | some c =>
      match report.requests c with
      | none => s.leave w report.id .idle
      | some params =>
        match report.attemptedAt c with
        | none => s.goto w (.delivering safely (.choosing report c params now))
        | some attempted =>
          if now - attempted ≥ safeRetryAge then s.goto w (.delivering safely (.scanning report c))
          else s.goto w (.delivering safely (.calling report c ⟨params, now⟩))

/-- Choose the destination of a first request: an invoice that has left draft is dropped. -/
def retrieve (draft : Bool) : Option ReportDesk :=
  match s.post w with
  | .delivering safely (.choosing report c params now) =>
    let params := if (truthy params.invoice).isSome && !draft then params.dropInvoice else params
    some (s.goto w (.delivering safely (.chosen report c params now)))
  | _ => none

/-- Persist the intent, or send the report to review. -/
def commitIntent (sub : Option Subscription) : Option ReportDesk :=
  match s.post w with
  | .delivering safely (.chosen report c params now) =>
    if noContinuing report params sub then
      some (s.commitRow w (report.review
        "No continuing subscription to collect carryover; reconcile explicitly.") .idle)
    else some (s.commitRow w (report.attempt c params now) (.looping safely report.id))
  | _ => none

/-- Beyond the safe window: recover a known item, or send the report to review. -/
def scan (listed : List StripeItem) : Option ReportDesk :=
  match s.post w with
  | .delivering safely (.scanning report c) =>
    match findExisting report c listed with
    | .found item => some (s.commitRow w (report.recordItem c item.id) (.looping safely report.id))
    | .mismatch => some (s.commitRow w
        (report.review "Recovered Stripe item does not match the reserved charge.") .idle)
    | .nothing => some (s.commitRow w (report.review
        "Stripe outcome unknown beyond safe idempotency window; do not blindly charge again.") .idle)
  | _ => none

/-- The create call returns an item, or raises an `InvalidRequestError`. -/
def answer (response : Response) : Option ReportDesk :=
  match s.post w with
  | .delivering safely (.calling report c request) =>
    match response with
    | .item item => some (s.goto w (.delivering safely (.answered report c item)))
    | .invalidRequest blamesInvoice =>
      some (s.goto w (.delivering safely (.rejected report c request.params blamesInvoice)))
  | _ => none

/-- Record the item of a successful create. -/
def record : Option ReportDesk :=
  match s.post w with
  | .delivering safely (.answered report c item) =>
    some (s.commitRow w (report.recordItem c item.id) (.looping safely report.id))
  | _ => none

/-- After a rejection that blames the invoice: carry over if the invoice has left draft.
Every other rejection is raised. -/
def resolve (draft : Bool) : Option ReportDesk :=
  match s.post w with
  | .delivering safely (.rejected report c params blamesInvoice) =>
    if (truthy params.invoice).isSome ∧ blamesInvoice ∧ draft = false then
      some (s.goto w (.delivering safely (.carrying report c params)))
    else none
  | _ => none

/-- Commit the carryover of a rejected request. -/
def carry : Option ReportDesk :=
  match s.post w with
  | .delivering safely (.carrying report c params) =>
    some (s.commitRow w (report.carryOver c params) (.looping safely report.id))
  | _ => none

/-- `finish` locks the usage row and reads the record's reports. -/
def lockUsage : Option ReportDesk :=
  match s.post w with
  | .confirming safely report =>
    match s.usageLock report.usageRecordId, s.db.usage report.usageRecordId with
    | none, some usage =>
      some (goto { s with
          usageLock := Function.update s.usageLock report.usageRecordId (some w) } w
        (.finishing safely report usage (s.db.reportsFor report.usageRecordId)))
    | _, _ => none
  | _ => none

/-- `finish` commits the watermarks and the status together. -/
def finish : Option ReportDesk :=
  match s.post w with
  | .finishing _ report usage read =>
    let db := s.db.putUsage (finishUsage usage read report.id)
    let free := Function.update s.usageLock report.usageRecordId none
    some (commitRow { s with db := db, usageLock := free } w report.confirm .idle)
  | _ => none

/-- Where a worker is after its round has raised. -/
def afterRaise (safely : Bool) (reportId : UUID) : Post :=
  if safely then .failed reportId else .idle

/-- An exception: the transaction rolls back and its locks are free. -/
def raise : Option ReportDesk :=
  match s.post w with
  | .idle => none
  | .looping safely id => some (s.goto w (afterRaise safely id))
  | .delivering safely p =>
    match p.copy with
    | none => none
    | some report => some (s.leave w report.id (afterRaise safely report.id))
  | .confirming safely report => some (s.leave w report.id (afterRaise safely report.id))
  | .finishing safely report _ _ =>
    some (leave { s with usageLock := Function.update s.usageLock report.usageRecordId none } w
      report.id (afterRaise safely report.id))
  | .failed _ => some (s.goto w .idle)
  | .noting report => some (s.leave w report.id .idle)

/-- The error handler of `deliver_safely` locks the report again: a locked, missing or
settled report ends the call. -/
def relock : Option ReportDesk :=
  match s.post w with
  | .failed id =>
    match s.rowLock id, s.db.reports.find? (fun r => r.id = id) with
    | none, some report =>
      if report.status = .pending then
        some (goto { s with rowLock := Function.update s.rowLock id (some w) } w (.noting report))
      else some (s.goto w .idle)
    | _, _ => some (s.goto w .idle)
  | _ => none

/-- The error handler notes the error. -/
def note (message : String) : Option ReportDesk :=
  match s.post w with
  | .noting report => some (s.commitRow w { report with lastError := some message } .idle)
  | _ => none

/-- One step. -/
def step : DeskAct → Option ReportDesk
  | .stage periodStart a => s.stage periodStart a
  | .upsertUsageCounters orgId start stop counts =>
    s.writeUsage start (fun db => db.upsertUsageCounters orgId start stop counts)
  | .markBilled start invoiceId => s.writeUsage start (fun db => db.markBilled start invoiceId)
  | .deliver w safely reportId =>
    match s.post w with
    | .idle => some (s.goto w (.looping safely reportId))
    | _ => none
  | .lock w => s.lock w
  | .begin w now =>
    match s.post w with
    | .delivering safely (.locked report) => some (s.start w safely report now)
    | _ => none
  | .retrieve w draft => s.retrieve w draft
  | .commitIntent w sub => s.commitIntent w sub
  | .scan w listed => s.scan w listed
  | .answer w response => s.answer w response
  | .record w => s.record w
  | .resolve w draft => s.resolve w draft
  | .carry w => s.carry w
  | .lockUsage w => s.lockUsage w
  | .finish w => s.finish w
  | .raise w => s.raise w
  | .relock w => s.relock w
  | .note w message => s.note w message

/-- Nothing is staged yet and nobody is at work. -/
structure Opened (s : ReportDesk) : Prop where
  unstaged : s.db.reports = []
  unlocked : ∀ id, s.rowLock id = none
  free : ∀ t, s.usageLock t = none
  idle : ∀ w, s.post w = .idle

end ReportDesk
end PandaProbe
