import Mathlib.Data.Prod.Lex
import PandaProbe.GuardedRun
import PandaProbe.OldestFirst
import PandaProbe.UsageLedger
import PandaProbe.UsageService

/-! # Usage that is counted after its period is closed

A request that still sees the old period in the subscription cache counts in the usage hash of a
period whose closing report is already staged.  `check_closed_billing_period` comes back for it:
for every closing report of the last week the dispatcher queues a check, which reads the hash
again, stores what it reads and stages the difference, although the record is billed.

The dispatcher takes the 200 closing reports with the oldest `updated_at`.  A check that goes
through writes `updated_at`, and so does a delivery of the report; a check that fails leaves the
report where it is.  `late_usage_billed`: if of every batch at most `f < 200` checks do not go
through, then what a counter holds is staged after `n / (200 - f) + 1` batches at the latest, `n`
being the closing reports ahead, unless the check is itself one of the `f`, or a delivery has moved
the report back.  It is staged once, in the units above the allowance: `UsageLedger` is all that
writes the record and its reports.

A check reads the hash and commits later.  From the first to the last it holds its report's row
lock, so no other check and no delivery of that report comes between.
-/
namespace PandaProbe
open HighWater OldestFirst

/-- What happens to the usage hashes. -/
inductive HashOp
  | increment (key : String) (id : UUID) (field : UsageCategory) (count : Nat) (limit : Int)
  | rollback (key : String) (id : UUID) (field : UsageCategory) (count : Nat)
  | expire (key : String)
  | forget (dedupKey : String)

namespace UsageStore

/-- A hash without fields is not there. -/
def isEmpty (st : UsageStore) (key : String) : Bool :=
  UsageCategory.all.all fun c => (st.hash key c).isNone

def apply (st : UsageStore) : HashOp → UsageStore
  | .increment key id field count limit =>
    (checkAndIncrementLua st key (retryKey key id) field count limit).1
  | .rollback key id field count =>
    (rollbackIncrementLua st key (rollbackRetryKey key id) field count).1
  | .expire key => { st with hash := Function.update st.hash key fun _ => none }
  | .forget dedupKey => st.expireDedup dedupKey

end UsageStore

/-- A closing report, as far as `recent_closures` reads it. -/
structure Closure where
  reportId : UUID
  orgId : UUID
  periodStart : DateTime
  createdAt : DateTime
  updatedAt : DateTime
  deriving DecidableEq

/-- `ORDER BY updated_at, id`. -/
def Closure.order (x : Closure) : DateTime ×ₗ UUID := toLex (x.updatedAt, x.reportId)

/-- A check that has read: the closing report it has locked, the subscription row, and the
counters, unless the hash was empty. -/
structure LateCheck where
  reportId : UUID
  sub : Subscription
  raw : Option (UsageCategory → Int)

/-- The record of every period with its reports, the subscriptions and the usage hashes; the
closing reports and the checks under way; the number of batches, and the checks of the last one
that have not gone through. -/
structure LateUsage where
  ledger : UUID → DateTime → Option UsageLedger
  subscription : UUID → Option Subscription
  redis : UsageStore
  closures : List Closure
  checks : List LateCheck
  clock : DateTime
  batches : Nat
  due : List UUID

/-- What can happen next. -/
inductive LateAct
  | hash (op : HashOp)
  | subscribe (orgId : UUID) (sub : Option Subscription)
  | openRecord (orgId : UUID) (start stop : DateTime)
  | write (orgId : UUID) (start : DateTime) (op : LedgerOp) (touches : Bool)
  | tick
  | read (reportId : UUID)
  | commit (reportId newId : UUID)
  | fail (reportId : UUID)

/-- The report a write is about. -/
def LedgerOp.report : LedgerOp → Option UUID
  | .deliver id _ | .finish id => some id
  | _ => none

/-- The limit of `recent_closures`. -/
def closureLimit : Nat := 200

/-- `USAGE_KEY_BUFFER_DAYS`. -/
def usageKeyBuffer : Int := DateTime.days 7

namespace LateUsage
variable (s : LateUsage)

/-- Store a record with its reports. -/
def put (orgId : UUID) (start : DateTime) (l : UsageLedger) : LateUsage :=
  let row := Function.update (s.ledger orgId) start (some l)
  { s with ledger := Function.update s.ledger orgId row }

/-- The closing reports since a time. -/
def window (since : DateTime) : List Closure := s.closures.filter fun x => since ≤ x.createdAt

/-- `recent_closures`. -/
def recentClosures (since : DateTime) : List UUID :=
  (oldest Closure.order closureLimit (s.window since)).map Closure.reportId

/-- A check has locked the report. -/
def checked (id : UUID) : Bool := s.checks.any fun k => k.reportId = id

/-- The row of a report is written. -/
def stamp (id : Option UUID) (now : DateTime) : List Closure :=
  s.closures.map fun x => if id = some x.reportId then { x with updatedAt := now } else x

/-- The closing reports among those that a write has added. -/
def newClosures (orgId : UUID) (start : DateTime) (l l' : UsageLedger) (now : DateTime) :
    List Closure :=
  (l'.reports.drop l.reports.length).filterMap fun r =>
    if r.closingInvoiceId.isSome then some ⟨r.id, orgId, start, r.createdAt, now⟩ else none

/-- A write that does not go through: a delivery passes over a report that is locked, and a report
that is staged has an id of its own. -/
def barred : LedgerOp → Bool
  | .stage a => s.closures.any fun x => x.reportId = a.reportId
  | .deliver id _ | .finish id => s.checked id
  | _ => false

/-- A write to a record or one of its reports. -/
def write (orgId : UUID) (start : DateTime) (op : LedgerOp) (touches : Bool) (now : DateTime) :
    Option LateUsage :=
  match s.ledger orgId start with
  | none => none
  | some l =>
    if s.barred op then none
    else
      let stamped := s.stamp (if touches then op.report else none) now
      some { s.put orgId start (l.step op) with
        closures := stamped ++ newClosures orgId start l (l.step op) now }

/-- The first half of `_check_closed_billing_period`, which returns where the report is gone or
locked, or the subscription is gone. -/
def read (id : UUID) : LateUsage :=
  match s.closures.find? fun x => x.reportId = id with
  | none => s
  | some x =>
    if s.checked id then s
    else
      match s.subscription x.orgId with
      | none => s
      | some sub =>
        let key := usageKey x.orgId x.periodStart
        let raw := if s.redis.isEmpty key then none else some (s.redis.value key)
        { s with checks := s.checks ++ [⟨id, sub, raw⟩] }

/-- The record after the sync of a check. -/
def LateCheck.synced (k : LateCheck) (l : UsageLedger) : UsageLedger :=
  match k.raw with
  | none => l
  | some counts => l.step (.upsertUsageCounters counts)

/-- The arguments of a check's `stage` call. -/
def LateCheck.stageArgs (k : LateCheck) (newId : UUID) (now : DateTime) : StageArgs :=
  ⟨k.sub, none, none, true, newId, now⟩

/-- Its second half: store what was read, stage it and commit. -/
def commit (id newId : UUID) (now : DateTime) : Option LateUsage :=
  match s.checks.find? fun k => k.reportId = id, s.closures.find? fun x => x.reportId = id with
  | some k, some x =>
    match s.ledger x.orgId x.periodStart with
    | none => none
    | some l =>
      let l := LateCheck.synced k l
      let a := LateCheck.stageArgs k newId now
      match stageOn l.usage l.reports a with
      | .error _ => none
      | .ok _ => some { s.put x.orgId x.periodStart (l.step (.stage a)) with
          closures := s.stamp (some id) now
          checks := s.checks.filter fun k => k.reportId ≠ id
          due := s.due.erase id }
  | _, _ => none

/-- What an action does. -/
def act (now : DateTime) : LateAct → Option LateUsage
  | .hash op => some { s with redis := s.redis.apply op }
  | .subscribe orgId sub => some { s with subscription := Function.update s.subscription orgId sub }
  | .openRecord orgId start stop =>
    if (s.ledger orgId start).isSome then none
    else some (s.put orgId start (.start (.fresh orgId start stop)))
  | .write orgId start op touches => s.write orgId start op touches now
  | .tick =>
    let batch := s.recentClosures (now - usageKeyBuffer)
    some { s with batches := s.batches + 1, due := batch }
  | .read id => some (s.read id)
  | .commit id newId => if s.closures.any fun x => x.reportId = newId then none
    else s.commit id newId now
  | .fail id => some { s with checks := s.checks.filter fun k => k.reportId ≠ id }

/-- An action at a time.  The clock moves on. -/
def step (a : DateTime × LateAct) : Option LateUsage :=
  if s.clock < a.1 then (s.act a.1 a.2).map fun s' => { s' with clock := a.1 } else none

/-- Nothing has happened yet. -/
def initial (now : DateTime) : LateUsage :=
  ⟨fun _ _ => none, fun _ => none, ⟨fun _ _ => none, fun _ => none⟩, [], [], now, 0, []⟩

/-- A counter of the period a closing report closes. -/
def counter (x : Closure) (c : UsageCategory) : Int :=
  s.redis.value (usageKey x.orgId x.periodStart) c

end LateUsage

/-! ## A record with its reports -/

namespace UsageLedger
variable {l : UsageLedger} {op : LedgerOp} {c : UsageCategory} {v : Int}

/-- What a record keeps that has started with no watermark: the reservations are in order, and
every report has a customer and an allowance. -/
structure Kept (l : UsageLedger) : Prop where
  reserved : Reserved (fun _ => 0) l.usage.reported l.reservations
  customers : ∀ r ∈ l.reports, (truthy (some r.stripeCustomerId)).isSome
  bases : ∀ r ∈ l.reports, ∀ c, 0 ≤ r.pricing.base c

theorem kept_start (orgId : UUID) (start stop : DateTime) :
    Kept (.start (.fresh orgId start stop)) :=
  ⟨Reserved.initial _, fun _ hr => absurd hr List.not_mem_nil,
    fun _ hr => absurd hr List.not_mem_nil⟩

theorem write_customer (r : BillingReport) (w : DeliveryWrite) :
    (r.write w).stripeCustomerId = r.stripeCustomerId := by
  unfold BillingReport.write
  split
  · split
    · rfl
    · split
      · rfl
      · cases w with
        | attempt dropInvoice now => simp only; split <;> rfl
        | carryOver => simp only; split <;> rfl
        | recordItem item => simp only; split <;> rfl
        | review reason => rfl
  · rfl

/-- **What a write does to the reports**: those that were there keep their customer and their
pricing, and one that is added is staged. -/
theorem mem_reports_step {r : BillingReport} (h : r ∈ (l.step op).reports) :
    (∃ q ∈ l.reports, r.stripeCustomerId = q.stripeCustomerId ∧ r.pricing = q.pricing) ∨
      ∃ a, stageOn l.usage l.reports a = .ok (.created r) := by
  have hsame : ∀ q ∈ l.reports, (∃ q' ∈ l.reports, q.stripeCustomerId = q'.stripeCustomerId ∧
      q.pricing = q'.pricing) := fun q hq => ⟨q, hq, rfl, rfl⟩
  cases op with
  | upsertUsageCounters counts => exact .inl (hsame r h)
  | markBilled invoiceId => exact .inl (hsame r h)
  | stage a =>
    simp only [step] at h
    split at h
    next q hq =>
      rcases List.mem_append.mp h with h | h
      · exact .inl (hsame r h)
      · obtain rfl := List.mem_singleton.mp h
        exact .inr ⟨a, hq⟩
    · exact .inl (hsame r h)
  | deliver id w =>
    obtain ⟨q, hq, rfl⟩ := List.mem_map.mp h
    refine .inl ⟨q, hq, ?_⟩
    split
    · exact ⟨write_customer q w, congrArg Reservation.pricing (q.write_reservation w)⟩
    · exact ⟨rfl, rfl⟩
  | finish id =>
    simp only [step] at h
    split at h
    · obtain ⟨q, hq, rfl⟩ := List.mem_map.mp h
      exact .inl ⟨q, hq, by split <;> exact ⟨rfl, rfl⟩⟩
    · exact .inl (hsame r h)

theorem Kept.step (h : Kept l) (op : LedgerOp) : Kept (l.step op) := by
  refine ⟨reserved_step h.reserved op, fun r hr => ?_, fun r hr c => ?_⟩
  · rcases mem_reports_step hr with ⟨q, hq, heq, -⟩ | ⟨a, ha⟩
    · rw [heq]
      exact h.customers q hq
    · obtain ⟨-, hne⟩ := Option.filter_eq_some_iff.mp (stageOn_created_checks ha).1
      exact Option.isSome_iff_exists.mpr ⟨_, Option.filter_eq_some_iff.mpr ⟨rfl, hne⟩⟩
  · rcases mem_reports_step hr with ⟨q, hq, -, heq⟩ | ⟨a, ha⟩
    · rw [heq]
      exact h.bases q hq c
    · obtain ⟨customer, rfl, -⟩ := stageOn_created ha
      change 0 ≤ (stagePricing a.sub (byCreation l.reports)).base c
      unfold stagePricing
      split
      next q hq => exact h.bases q (mem_byCreation.mp (List.mem_of_head? hq)) c
      · exact SubscriptionPlan.base_nonneg _ c

theorem Kept.run (h : Kept l) (ops : List LedgerOp) : Kept (l.run ops) := by
  induction ops generalizing l with
  | nil => exact h
  | cons op ops ih => exact ih (h.step op)

/-- **Reservations are only added.** -/
theorem reservations_step (l : UsageLedger) (op : LedgerOp) :
    ∃ new, (l.step op).reservations = l.reservations ++ new := by
  rcases l.step_cases op with ⟨-, h⟩ | ⟨a, customer, -, h⟩ | ⟨id, -, h⟩
  · exact ⟨[], by rw [h, List.append_nil]⟩
  · exact ⟨_, h⟩
  · exact ⟨[], by rw [h, List.append_nil]⟩

theorem reports_eq_nil_iff : l.reports = [] ↔ l.reservations = [] := by
  rw [reservations, List.map_eq_nil_iff]

theorem reports_step_ne_nil (h : l.reports ≠ []) (op : LedgerOp) : (l.step op).reports ≠ [] := by
  obtain ⟨new, hnew⟩ := reservations_step l op
  rw [Ne, reports_eq_nil_iff, hnew, List.append_eq_nil_iff, not_and_or]
  exact .inl (mt reports_eq_nil_iff.mpr h)

theorem reports_run_ne_nil (h : l.reports ≠ []) (ops : List LedgerOp) :
    (l.run ops).reports ≠ [] := by
  induction ops generalizing l with
  | nil => exact h
  | cons op ops ih => exact ih (reports_step_ne_nil h op)

theorem frozenBase_eq (l : UsageLedger) (c : UsageCategory) :
    l.frozenBase c = (l.reservations.head?.map fun r => r.pricing.base c).getD 0 := by
  rw [frozenBase, reservations, List.head?_map, Option.map_map]
  cases l.reports.head? <;> rfl

/-- The allowance is that of the first report. -/
theorem frozenBase_step (h : l.reports ≠ []) (op : LedgerOp) (c : UsageCategory) :
    (l.step op).frozenBase c = l.frozenBase c := by
  obtain ⟨new, hnew⟩ := reservations_step l op
  rw [frozenBase_eq, frozenBase_eq, hnew, List.head?_append_of_ne_nil]
  exact mt reports_eq_nil_iff.mpr h

theorem maxSnapshot_step (l : UsageLedger) (op : LedgerOp) (c : UsageCategory) :
    l.maxSnapshot 0 c ≤ (l.step op).maxSnapshot 0 c := by
  obtain ⟨new, hnew⟩ := reservations_step l op
  rw [← topMark_reservations l fun _ => 0, ← topMark_reservations (l.step op) fun _ => 0, hnew,
    topMark, topMark, List.map_append]
  exact mark_le (le_mark _ _) fun x hx => le_mark_of_mem (List.mem_append_left _ hx)

/-- What lies above the allowance up to a count is reserved. -/
def Secured (l : UsageLedger) (c : UsageCategory) (v : Int) : Prop :=
  overage (l.frozenBase c) v ≤ overage (l.frozenBase c) (l.maxSnapshot 0 c)

theorem Secured.run (h : l.Secured c v) (hne : l.reports ≠ []) (ops : List LedgerOp) :
    (l.run ops).Secured c v := by
  induction ops generalizing l with
  | nil => exact h
  | cons op ops ih =>
    refine ih ?_ (reports_step_ne_nil hne op)
    rw [Secured, frozenBase_step hne]
    exact h.trans (overage_mono _ (maxSnapshot_step l op c))

/-- All reports of a record have its allowance. -/
theorem Kept.base_eq (h : Kept l) {r : BillingReport} (hr : r ∈ l.reports) (c : UsageCategory) :
    r.pricing.base c = l.frozenBase c := by
  cases hreports : l.reports with
  | nil =>
    rw [hreports] at hr
    cases hr
  | cons first rest =>
    have hfirst : first ∈ l.reports := hreports ▸ List.mem_cons_self
    have hsame := h.reserved.uniform _ (List.mem_map_of_mem hr) _ (List.mem_map_of_mem hfirst)
    rw [frozenBase, hreports]
    exact congrArg (fun p : Pricing => p.base c) hsame

/-- **What is secured is staged**: the units of the requests are those above the allowance. -/
theorem Secured.staged (h : l.Secured c v) (hkept : Kept l) (hne : l.reports ≠ []) :
    overage (l.frozenBase c) v ≤ l.stagedUnits c := by
  obtain ⟨first, hfirst⟩ := List.exists_mem_of_ne_nil _ hne
  have hcharged := hkept.reserved.charged_eq c first.reservation (List.mem_map_of_mem hfirst)
  have hpricing : first.reservation.pricing.base c = l.frozenBase c := hkept.base_eq hfirst c
  rw [hpricing] at hcharged
  rw [stagedUnits_eq_charged fun r hr => hkept.base_eq hr c, hcharged, topMark_reservations]
  have hbase := hpricing ▸ hkept.bases first hfirst c
  have hzero : overage (l.frozenBase c) 0 = 0 := max_eq_left (by omega)
  rw [hzero, sub_zero]
  exact h

/-- The `stage` call of a check. -/
def IsLate (a : StageArgs) : Prop := a.allowClosed = true ∧ a.closingInvoiceId = none

/-- **A check's `stage` call does not raise**: the record has a report, and its customer.  It stores
a report if there is something to charge. -/
theorem Kept.stageOn_late (h : Kept l) (hne : l.reports ≠ []) {a : StageArgs} (ha : IsLate a) :
    ∃ customer, stageOn l.usage l.reports a =
      let r := stageReport l.usage (byCreation l.reports) a customer
      if r.status = .pending then .ok (.created r) else .ok .nothing := by
  have hprevious : byCreation l.reports ≠ [] := fun hnil =>
    hne (List.perm_nil.mp (hnil ▸ (byCreation_perm l.reports).symm))
  obtain ⟨first, rest, hcons⟩ := List.exists_cons_of_ne_nil hprevious
  have hfirst : first ∈ l.reports := mem_byCreation.mp (hcons ▸ List.mem_cons_self)
  obtain ⟨customer, hcustomer⟩ := Option.isSome_iff_exists.mp (h.customers first hfirst)
  have hstage : truthy (stageCustomer a.sub (byCreation l.reports)) = some customer := by
    rw [stageCustomer, hcons]
    exact hcustomer
  have hempty : (byCreation l.reports).isEmpty = false := by rw [hcons]; rfl
  have hclosing : truthy (none : Option String) = none := rfl
  refine ⟨customer, ?_⟩
  simp only [stageOn, ha.1, ha.2, hstage, hempty, hclosing, Option.bind_none, Bool.not_true,
    Bool.and_false, Bool.false_eq_true, if_false, and_true, ite_not]

theorem Kept.stageOn_isOk (h : Kept l) (hne : l.reports ≠ []) {a : StageArgs} (ha : IsLate a) :
    ∃ outcome, stageOn l.usage l.reports a = .ok outcome := by
  obtain ⟨customer, hstage⟩ := h.stageOn_late hne ha
  dsimp only at hstage
  split at hstage
  · exact ⟨_, hstage⟩
  · exact ⟨_, hstage⟩

/-- **A check secures what it has stored.** -/
theorem Kept.secured (h : Kept l) (hne : l.reports ≠ []) {a : StageArgs} (ha : IsLate a)
    (c : UsageCategory) : (l.step (.stage a)).Secured c (l.usage.count c) := by
  obtain ⟨customer, hstage⟩ := h.stageOn_late hne ha
  have hreserved : reservedCount l.usage (byCreation l.reports) c = l.maxSnapshot 0 c := by
    rw [reservedCount_eq_topMark h.reserved, topMark_reservations]
  have hpricing : (stagePricing a.sub (byCreation l.reports)).base c = l.frozenBase c := by
    obtain ⟨first, rest, hcons⟩ := List.exists_cons_of_ne_nil fun hnil =>
      hne (List.perm_nil.mp (hnil ▸ (byCreation_perm l.reports).symm))
    rw [stagePricing, hcons]
    exact h.base_eq (mem_byCreation.mp (hcons ▸ List.mem_cons_self)) c
  dsimp only at hstage
  rw [Secured, frozenBase_step hne]
  split at hstage
  · -- the new snapshot takes the counter in
    refine overage_mono _ ?_
    simp only [UsageLedger.step, hstage, maxSnapshot, List.map_append, List.map_singleton,
      mark_concat]
    exact le_max_of_le_right (le_max_right _ _)
  next hdue =>
    -- there is nothing above the allowance to charge
    have hnone := stageRequest_none_of_status hdue c
    simp only [stageRequest, hpricing, hreserved, snapshotCount] at hnone
    split at hnone
    next hunits =>
      rw [overageUnits_eq] at hunits
      have hsame : (l.step (.stage a)).maxSnapshot 0 c = l.maxSnapshot 0 c := by
        simp only [UsageLedger.step, hstage]
      rw [hsame]
      exact (overage_mono _ (le_max_right _ _)).trans (sub_nonpos.mp hunits)
    · cases hnone

end UsageLedger

/-! ## What a step does -/

namespace LateUsage
variable {s s' : LateUsage} {now : DateTime} {a : LateAct} {x : Closure}

@[simp] theorem put_ledger_self (o : UUID) (t : DateTime) (l : UsageLedger) :
    (s.put o t l).ledger o t = some l := by
  simp [put]

theorem put_ledger (o o' : UUID) (t t' : DateTime) (l : UsageLedger) :
    (s.put o t l).ledger o' t' = if o' = o ∧ t' = t then some l else s.ledger o' t' := by
  by_cases ho : o' = o
  · subst ho
    by_cases ht : t' = t <;> simp [put, ht]
  · simp [put, ho]

@[simp] theorem stamp_none (s : LateUsage) (now : DateTime) : s.stamp none now = s.closures := by
  simp [stamp]

theorem map_reportId_stamp (s : LateUsage) (id : Option UUID) (now : DateTime) :
    (s.stamp id now).map Closure.reportId = s.closures.map Closure.reportId := by
  rw [stamp, List.map_map]
  refine List.map_congr_left fun x _ => ?_
  rw [Function.comp_apply]
  split <;> rfl

/-- A closing report that is added is the one that was staged. -/
theorem newClosures_step (o : UUID) (t : DateTime) (l : UsageLedger) (op : LedgerOp)
    (now : DateTime) : newClosures o t l (l.step op) now = [] ∨
      ∃ a y, op = .stage a ∧ newClosures o t l (l.step op) now = [y] ∧ y.reportId = a.reportId ∧
        y.orgId = o ∧ y.periodStart = t ∧ y.updatedAt = now ∧ (l.step op).reports ≠ [] := by
  have hsame : ∀ {l' : UsageLedger}, l'.reports.length = l.reports.length →
      newClosures o t l l' now = [] := by
    intro l' h
    rw [newClosures, ← h, List.drop_length]
    rfl
  cases op with
  | upsertUsageCounters counts => exact .inl (hsame rfl)
  | markBilled invoiceId => exact .inl (hsame rfl)
  | deliver id w => exact .inl (hsame (List.length_map _))
  | finish id =>
    refine .inl (hsame ?_)
    simp only [UsageLedger.step]
    split
    · exact List.length_map _
    · rfl
  | stage a =>
    simp only [UsageLedger.step]
    split
    next r hr =>
      obtain ⟨customer, rfl, -⟩ := stageOn_created hr
      rw [newClosures, List.drop_left]
      by_cases hclosing : a.closingInvoiceId.isSome = true
      · refine .inr ⟨a, _, rfl, List.filterMap_cons_some (if_pos hclosing), rfl, rfl, rfl, rfl, ?_⟩
        simp
      · exact .inl (List.filterMap_cons_none (if_neg hclosing))
    · exact .inl (hsame rfl)

/-- **What a step does to the tables**: it writes at most one closing report and adds others behind
all that are there, each with its record; it writes to the records, and opens new ones. -/
structure Moves (s s' : LateUsage) (id : Option UUID) : Prop where
  clock : s.clock < s'.clock
  closures : ∃ new, s'.closures = s.stamp id s'.clock ++ new ∧
    (new.map Closure.reportId).Nodup ∧ ∀ y ∈ new, y.updatedAt = s'.clock ∧
      y.reportId ∉ s.closures.map Closure.reportId ∧
      ∃ l, s'.ledger y.orgId y.periodStart = some l ∧ l.reports ≠ []
  ledger : ∀ o t l, s.ledger o t = some l → ∃ ops, s'.ledger o t = some (l.run ops)
  opened : ∀ o t l', s'.ledger o t = some l' →
    (∃ l ops, s.ledger o t = some l ∧ l' = l.run ops) ∨ ∃ stop, l' = .start (.fresh o t stop)

/-- A step that leaves the tables alone. -/
theorem Moves.of_eq (hclock : s.clock < s'.clock) (hclosures : s'.closures = s.closures)
    (hledger : s'.ledger = s.ledger) : Moves s s' none where
  clock := hclock
  closures := ⟨[], by simp [hclosures], List.nodup_nil, fun y hy => by cases hy⟩
  ledger o t l hl := ⟨[], by rw [hledger, hl]; rfl⟩
  opened o t l' hl' := .inl ⟨l', [], hledger ▸ hl', rfl⟩

/-- A step that writes one record. -/
theorem Moves.of_put {o : UUID} {t : DateTime} {l : UsageLedger} (ops : List LedgerOp)
    {id : Option UUID} (new : List Closure) (hclock : s.clock < s'.clock)
    (hl : s.ledger o t = some l) (hledger : s'.ledger = (s.put o t (l.run ops)).ledger)
    (hclosures : s'.closures = s.stamp id s'.clock ++ new)
    (hnew : (new.map Closure.reportId).Nodup ∧ ∀ y ∈ new, y.updatedAt = s'.clock ∧
      y.reportId ∉ s.closures.map Closure.reportId ∧
      ∃ l, s'.ledger y.orgId y.periodStart = some l ∧ l.reports ≠ []) : Moves s s' id where
  clock := hclock
  closures := ⟨new, hclosures, hnew⟩
  ledger o' t' l' hl' := by
    rw [hledger, put_ledger]
    split
    next h =>
      obtain ⟨rfl, rfl⟩ := h
      obtain rfl := Option.some.inj (hl.symm.trans hl')
      exact ⟨ops, rfl⟩
    · exact ⟨[], hl'⟩
  opened o' t' l' hl' := by
    rw [hledger, put_ledger] at hl'
    split at hl'
    next h =>
      obtain ⟨rfl, rfl⟩ := h
      exact .inl ⟨l, ops, hl, (Option.some.inj hl').symm⟩
    · exact .inl ⟨l', [], hl', rfl⟩

/-- The closing report an action writes. -/
def writes : LateAct → Option UUID
  | .write _ _ op touches => if touches then op.report else none
  | .commit id _ => some id
  | _ => none

/-- A commit that goes through: what the check has read is stored, and staged. -/
theorem commit_eq_some {id newId : UUID} (h : s.commit id newId now = some s') :
    ∃ k x l, k ∈ s.checks ∧ k.reportId = id ∧ x ∈ s.closures ∧ x.reportId = id ∧
      s.ledger x.orgId x.periodStart = some l ∧
      s' = { s.put x.orgId x.periodStart
          ((LateCheck.synced k l).step (.stage (LateCheck.stageArgs k newId now))) with
        closures := s.stamp (some id) now
        checks := s.checks.filter fun k => k.reportId ≠ id
        due := s.due.erase id } := by
  unfold commit at h
  split at h
  next k x hk hx =>
    have hkid : k.reportId = id := by simpa using List.find?_some hk
    have hxid : x.reportId = id := by simpa using List.find?_some hx
    split at h
    · cases h
    next l hl =>
      dsimp only at h
      split at h
      · cases h
      · cases h
        exact ⟨k, x, l, List.mem_of_find?_eq_some hk, hkid, List.mem_of_find?_eq_some hx, hxid, hl,
          rfl⟩
  · cases h

/-- The sync of a check is a write, or nothing. -/
theorem synced_eq_run (k : LateCheck) (l : UsageLedger) :
    ∃ ops, LateCheck.synced k l = l.run ops := by
  unfold LateCheck.synced
  cases k.raw with
  | none => exact ⟨[], rfl⟩
  | some counts => exact ⟨[.upsertUsageCounters counts], rfl⟩

theorem checks_read (s : LateUsage) (id : UUID) :
    s.read id = s ∨ ∃ x sub, s.checked id = false ∧ x ∈ s.closures ∧ x.reportId = id ∧
      s.read id = { s with checks := s.checks ++ [⟨id, sub,
        if s.redis.isEmpty (usageKey x.orgId x.periodStart) then none
        else some (s.redis.value (usageKey x.orgId x.periodStart))⟩] } := by
  unfold read
  split
  · exact .inl rfl
  next x hx =>
    have hxid : x.reportId = id := by simpa using List.find?_some hx
    split
    · exact .inl rfl
    next hfree =>
      split
      · exact .inl rfl
      next sub hsub =>
        exact .inr ⟨x, sub, by simpa using hfree, List.mem_of_find?_eq_some hx, hxid, rfl⟩

/-- **One step.** -/
theorem moves_step (h : s.step (now, a) = some s') : Moves s s' (writes a) := by
  unfold step at h
  split at h
  next hclock =>
    obtain ⟨s'', hact, rfl⟩ := Option.map_eq_some_iff.mp h
    cases a with
    | hash op =>
      cases hact
      exact .of_eq hclock rfl rfl
    | subscribe o sub =>
      cases hact
      exact .of_eq hclock rfl rfl
    | tick =>
      cases hact
      exact .of_eq hclock rfl rfl
    | fail id =>
      cases hact
      exact .of_eq hclock rfl rfl
    | read id =>
      cases hact
      rcases checks_read s id with heq | ⟨x, sub, -, -, -, heq⟩
      · rw [heq]
        exact .of_eq hclock rfl rfl
      · rw [heq]
        exact .of_eq hclock rfl rfl
    | openRecord o t stop =>
      simp only [act] at hact
      split at hact
      · cases hact
      next hnew =>
        cases hact
        refine ⟨hclock, ⟨[], by simp [writes, put], List.nodup_nil, fun y hy => by cases hy⟩,
          fun o' t' l hl => ⟨[], ?_⟩, fun o' t' l' hl' => ?_⟩
        · change (s.put o t _).ledger o' t' = some l
          rw [put_ledger, if_neg, hl]
          rintro ⟨rfl, rfl⟩
          rw [hl] at hnew
          exact hnew rfl
        · change (s.put o t _).ledger o' t' = some l' at hl'
          rw [put_ledger] at hl'
          split at hl'
          next hkey =>
            obtain ⟨rfl, rfl⟩ := hkey
            exact .inr ⟨stop, (Option.some.inj hl').symm⟩
          · exact .inl ⟨l', [], hl', rfl⟩
    | commit id newId =>
      simp only [act] at hact
      split at hact
      · cases hact
      · obtain ⟨k, x, l, -, -, -, -, hl, rfl⟩ := commit_eq_some hact
        obtain ⟨ops, hops⟩ := synced_eq_run k l
        refine Moves.of_put (ops ++ [.stage (LateCheck.stageArgs k newId now)]) [] hclock hl ?_
          (List.append_nil _).symm ⟨List.nodup_nil, fun y hy => by cases hy⟩
        rw [hops, UsageLedger.run, UsageLedger.run, List.foldl_append]
        rfl
    | write o t op touches =>
      simp only [act, write] at hact
      split at hact
      · cases hact
      next l hl =>
        split at hact
        · cases hact
        next hfree =>
          cases hact
          refine Moves.of_put [op] _ hclock hl rfl rfl ?_
          rcases newClosures_step o t l op now with hnil | ⟨a, y, rfl, hone, hid, ho, ht, hat, hne⟩
          · rw [hnil]
            exact ⟨List.nodup_nil, fun y hy => by cases hy⟩
          · rw [hone]
            refine ⟨List.nodup_singleton _, fun z hz => ?_⟩
            obtain rfl := List.mem_singleton.mp hz
            refine ⟨hat, fun hmem => hfree ?_, _, ?_, hne⟩
            · obtain ⟨x, hx, hxid⟩ := List.mem_map.mp hmem
              exact List.any_eq_true.mpr ⟨x, hx, decide_eq_true (hxid.trans hid)⟩
            · rw [ho, ht]
              exact put_ledger_self _ _ _
  · cases h

/-- **What a step does to the rest**: it does one thing to the hashes; unless it is a dispatch, what
is due stays due but for a check that goes through; and a check that is under way has read before,
or reads now. -/
structure Serves (s s' : LateUsage) (a : LateAct) : Prop where
  redis : s'.redis = s.redis ∨ ∃ op, a = .hash op ∧ s'.redis = s.redis.apply op
  due : a ≠ .tick → s'.batches = s.batches ∧ ∀ i, writes a ≠ some i → i ∈ s.due → i ∈ s'.due
  checks : ∀ k ∈ s'.checks, k ∈ s.checks ∨ ∃ x ∈ s.closures, x.reportId = k.reportId ∧ k.raw =
    if s.redis.isEmpty (usageKey x.orgId x.periodStart) then none
    else some (s.redis.value (usageKey x.orgId x.periodStart))

theorem serves_step (h : s.step (now, a) = some s') : Serves s s' a := by
  unfold step at h
  split at h
  next hclock =>
    obtain ⟨s'', hact, rfl⟩ := Option.map_eq_some_iff.mp h
    cases a with
    | hash op =>
      cases hact
      exact ⟨.inr ⟨op, rfl, rfl⟩, fun _ => ⟨rfl, fun _ _ hi => hi⟩, fun _ hk => .inl hk⟩
    | subscribe o sub =>
      cases hact
      exact ⟨.inl rfl, fun _ => ⟨rfl, fun _ _ hi => hi⟩, fun _ hk => .inl hk⟩
    | tick =>
      cases hact
      exact ⟨.inl rfl, fun hne => absurd rfl hne, fun _ hk => .inl hk⟩
    | fail id =>
      cases hact
      exact ⟨.inl rfl, fun _ => ⟨rfl, fun _ _ hi => hi⟩, fun _ hk => .inl (List.mem_filter.mp hk).1⟩
    | read id =>
      cases hact
      rcases checks_read s id with heq | ⟨x, sub, -, hx, hxid, heq⟩
      · rw [heq]
        exact ⟨.inl rfl, fun _ => ⟨rfl, fun _ _ hi => hi⟩, fun _ hk => .inl hk⟩
      · rw [heq]
        refine ⟨.inl rfl, fun _ => ⟨rfl, fun _ _ hi => hi⟩, fun k hk => ?_⟩
        rcases List.mem_append.mp hk with hk | hk
        · exact .inl hk
        · obtain rfl := List.mem_singleton.mp hk
          exact .inr ⟨x, hx, hxid, rfl⟩
    | openRecord o t stop =>
      simp only [act] at hact
      split at hact
      · cases hact
      · cases hact
        exact ⟨.inl rfl, fun _ => ⟨rfl, fun _ _ hi => hi⟩, fun _ hk => .inl hk⟩
    | commit id newId =>
      simp only [act] at hact
      split at hact
      · cases hact
      · obtain ⟨_, _, _, -, -, -, -, -, rfl⟩ := commit_eq_some hact
        refine ⟨.inl rfl, fun _ => ⟨rfl, fun i hi hmem => ?_⟩, fun _ hk =>
          .inl (List.mem_filter.mp hk).1⟩
        have hne : i ≠ id := fun heq => hi (congrArg some heq.symm)
        exact (List.mem_erase_of_ne hne).mpr hmem
    | write o t op touches =>
      simp only [act, write] at hact
      split at hact
      · cases hact
      · split at hact
        · cases hact
        · cases hact
          exact ⟨.inl rfl, fun _ => ⟨rfl, fun _ _ hi => hi⟩, fun _ hk => .inl hk⟩
  · cases h

/-! ## What every run keeps -/

/-- **The tables are in order**: a closing report has a record, with reports; and a check that is
under way has a closing report. -/
structure Sound (s : LateUsage) : Prop where
  ids : (s.closures.map Closure.reportId).Nodup
  stamps : ∀ x ∈ s.closures, x.updatedAt ≤ s.clock
  kept : ∀ o t l, s.ledger o t = some l → l.Kept
  recorded : ∀ x ∈ s.closures, ∃ l, s.ledger x.orgId x.periodStart = some l ∧ l.reports ≠ []
  locked : ∀ k ∈ s.checks, ∃ x ∈ s.closures, x.reportId = k.reportId

theorem sound_initial (now : DateTime) : Sound (initial now) where
  ids := List.nodup_nil
  stamps x hx := by cases hx
  kept o t l hl := by cases hl
  recorded x hx := by cases hx
  locked k hk := by cases hk

/-- A closing report that is there stays there, perhaps written. -/
theorem Moves.mem {id : Option UUID} (h : Moves s s' id) (hx : x ∈ s.closures) :
    ∃ y ∈ s'.closures, y.reportId = x.reportId ∧ (id ≠ some x.reportId → y = x) := by
  obtain ⟨new, heq, -⟩ := h.closures
  refine ⟨_, heq ▸ List.mem_append_left _ (List.mem_map_of_mem hx), ?_, fun hid => if_neg hid⟩
  split <;> rfl

theorem Sound.step (h : Sound s) (hs : s.step (now, a) = some s') : Sound s' := by
  have hmoves := moves_step hs
  obtain ⟨new, hclosures, hnodup, hnew⟩ := hmoves.closures
  have hkept : ∀ o t l, s'.ledger o t = some l → l.Kept := by
    intro o t l hl
    rcases hmoves.opened o t l hl with ⟨l₀, ops, hl₀, rfl⟩ | ⟨stop, rfl⟩
    · exact (h.kept o t l₀ hl₀).run ops
    · exact UsageLedger.kept_start o t stop
  refine ⟨?_, fun x hx => ?_, hkept, fun x hx => ?_, fun k hk => ?_⟩
  · rw [hclosures, List.map_append, map_reportId_stamp]
    refine h.ids.append hnodup fun i hi hi' => ?_
    obtain ⟨y, hy, rfl⟩ := List.mem_map.mp hi'
    exact (hnew y hy).2.1 hi
  · rw [hclosures] at hx
    rcases List.mem_append.mp hx with hx | hx
    · obtain ⟨y, hy, rfl⟩ := List.mem_map.mp hx
      split
      · exact le_refl _
      · exact (h.stamps y hy).trans hmoves.clock.le
    · exact (hnew x hx).1.le
  · rw [hclosures] at hx
    rcases List.mem_append.mp hx with hx | hx
    · obtain ⟨y, hy, rfl⟩ := List.mem_map.mp hx
      obtain ⟨l, hl, hne⟩ := h.recorded y hy
      obtain ⟨ops, hops⟩ := hmoves.ledger _ _ l hl
      refine ⟨l.run ops, ?_, UsageLedger.reports_run_ne_nil hne ops⟩
      split <;> exact hops
    · exact (hnew x hx).2.2
  · obtain ⟨x, hx, hid⟩ : ∃ x ∈ s.closures, x.reportId = k.reportId := by
      rcases (serves_step hs).checks k hk with hk | ⟨x, hx, hid, -⟩
      · exact h.locked k hk
      · exact ⟨x, hx, hid⟩
    obtain ⟨y, hy, hyid, -⟩ := hmoves.mem hx
    exact ⟨y, hy, hyid.trans hid⟩

/-- **A check that is under way goes through**, whatever has happened since it read. -/
theorem Sound.commits (h : Sound s) {k : LateCheck} (hk : k ∈ s.checks) {newId : UUID}
    (hnow : s.clock < now) (hnew : ∀ x ∈ s.closures, x.reportId ≠ newId) :
    (s.step (now, .commit k.reportId newId)).isSome := by
  obtain ⟨x, hx, hxid⟩ := h.locked k hk
  have hfindk : (s.checks.find? fun q => q.reportId = k.reportId).isSome :=
    List.find?_isSome.mpr ⟨k, hk, decide_eq_true rfl⟩
  have hfindx : (s.closures.find? fun y => y.reportId = k.reportId).isSome :=
    List.find?_isSome.mpr ⟨x, hx, decide_eq_true hxid⟩
  obtain ⟨q, hq⟩ := Option.isSome_iff_exists.mp hfindk
  obtain ⟨y, hy⟩ := Option.isSome_iff_exists.mp hfindx
  obtain ⟨l, hl, hne⟩ := h.recorded y (List.mem_of_find?_eq_some hy)
  obtain ⟨ops, hops⟩ := synced_eq_run q l
  have hkept : (LateCheck.synced q l).Kept := hops ▸ (h.kept _ _ l hl).run ops
  have hreports : (LateCheck.synced q l).reports ≠ [] :=
    hops ▸ UsageLedger.reports_run_ne_nil hne ops
  obtain ⟨outcome, hok⟩ := hkept.stageOn_isOk hreports
    (a := LateCheck.stageArgs q newId now) ⟨rfl, rfl⟩
  have hfree : (s.closures.any fun x => x.reportId = newId) = false := by
    rw [List.any_eq_false]
    exact fun x hx => by simpa using hnew x hx
  rw [LateUsage.step, if_pos hnow, act, hfree, if_neg Bool.false_ne_true, Option.isSome_map, commit,
    hq, hy]
  simp only [hl, hok]
  rfl

/-! ## The place in the queue -/

/-- The closing reports since a time that are ahead of one, but for those the last batch has and
that have not gone through. -/
def front (s : LateUsage) (since : DateTime) (x : Closure) : Nat :=
  (s.window since).countP fun y => decide (y.order < x.order) && !decide (y.reportId ∈ s.due)

theorem order_lt_iff {x y : Closure} : y.order < x.order ↔
    y.updatedAt < x.updatedAt ∨ y.updatedAt = x.updatedAt ∧ y.reportId < x.reportId := by
  exact Prod.Lex.toLex_lt_toLex

/-- A row written now comes behind all that were there. -/
theorem not_order_lt {x y : Closure} (h : x.updatedAt < y.updatedAt) : ¬ y.order < x.order := by
  rw [order_lt_iff]
  rintro (hlt | ⟨heq, -⟩)
  · exact absurd hlt (not_lt.mpr h.le)
  · exact absurd heq h.ne'

theorem window_sublist {since since' : DateTime} (h : since ≤ since') :
    (s.window since').Sublist (s.window since) :=
  List.monotone_filter_right _ fun _ hy => decide_eq_true (h.trans (of_decide_eq_true hy))

theorem order_inj (hids : (s.closures.map Closure.reportId).Nodup) (since : DateTime) :
    ∀ y ∈ s.window since, ∀ z ∈ s.window since, y.order = z.order → y = z := by
  intro y hy z hz heq
  have hid : y.reportId = z.reportId := congrArg (fun k => (ofLex k).2) heq
  exact List.inj_on_of_nodup_map hids (List.mem_filter.mp hy).1 (List.mem_filter.mp hz).1 hid

/-- **A step moves nothing forward**: what is ahead afterwards was ahead before, and was not the
report written. -/
theorem Moves.countP_le {id : Option UUID} (h : Moves s s' id) (hx : x.updatedAt ≤ s.clock)
    (since : DateTime) {p q : Closure → Bool}
    (hpq : ∀ y ∈ s.closures, id ≠ some y.reportId → p y → q y) :
    (s'.window since).countP (fun y => decide (y.order < x.order) && p y) ≤
      (s.window since).countP fun y => decide (y.order < x.order) && q y := by
  obtain ⟨new, heq, -, hnew⟩ := h.closures
  have hlate : ∀ y : Closure, y.updatedAt = s'.clock → decide (y.order < x.order) = false := by
    intro y hy
    exact decide_eq_false (not_order_lt (hy ▸ lt_of_le_of_lt hx h.clock))
  rw [window, window, List.countP_filter, List.countP_filter, heq, List.countP_append, stamp,
    List.countP_map]
  have hzero : new.countP (fun y => decide (y.order < x.order) && p y &&
      decide (since ≤ y.createdAt)) = 0 := by
    refine List.countP_eq_zero.mpr fun y hy => ?_
    rw [hlate y (hnew y hy).1, Bool.false_and, Bool.false_and]
    exact Bool.false_ne_true
  rw [hzero, Nat.add_zero]
  refine List.countP_mono_left fun y hy hahead => ?_
  rw [Function.comp_apply] at hahead
  split at hahead
  · rw [hlate _ rfl, Bool.false_and, Bool.false_and] at hahead
    cases hahead
  next hid =>
    simp only [Bool.and_eq_true] at hahead ⊢
    exact ⟨⟨hahead.1.1, hpq y hy hid hahead.1.2⟩, hahead.2⟩

theorem Moves.front_le {id : Option UUID} (h : Moves s s' id) (hx : x.updatedAt ≤ s.clock)
    (hdue : ∀ i, id ≠ some i → i ∈ s.due → i ∈ s'.due) (since : DateTime) :
    s'.front since x ≤ s.front since x := by
  refine h.countP_le hx since fun y _ hid hnot => ?_
  simp only [Bool.not_eq_true', decide_eq_false_iff_not] at hnot ⊢
  exact fun hmem => hnot (hdue _ hid hmem)

theorem Moves.ahead_le {id : Option UUID} (h : Moves s s' id) (hx : x.updatedAt ≤ s.clock)
    (since : DateTime) : ahead Closure.order (s'.window since) x.order ≤
      ahead Closure.order (s.window since) x.order := by
  have hle := h.countP_le hx since (p := fun _ => true) (q := fun _ => true) fun _ _ _ hp => hp
  simp only [Bool.and_true] at hle
  exact hle

/-- What is ahead is in front, or in the last batch. -/
theorem ahead_le_front (hids : (s.closures.map Closure.reportId).Nodup) (since : DateTime)
    (x : Closure) :
    ahead Closure.order (s.window since) x.order ≤ s.front since x + s.due.length := by
  have hsplit := List.countP_eq_countP_filter_add (s.window since)
    (fun y => decide (y.order < x.order)) (fun y => decide (y.reportId ∈ s.due))
  have hsub : ((s.window since).filter fun y => decide (y.reportId ∈ s.due)).Sublist s.closures :=
    List.filter_sublist.trans List.filter_sublist
  have hdue : ((s.window since).filter fun y => decide (y.reportId ∈ s.due)).length ≤
      s.due.length := by
    rw [← List.length_map Closure.reportId]
    refine (List.Nodup.subperm (hids.sublist (hsub.map _)) fun i hi => ?_).length_le
    obtain ⟨y, hy, rfl⟩ := List.mem_map.mp hi
    exact of_decide_eq_true (List.mem_filter.mp hy).2
  have hcount := ((s.window since).filter fun y => decide (y.reportId ∈ s.due)).countP_le_length
    (p := fun y => decide (y.order < x.order))
  rw [ahead, hsplit, front, ← List.countP_filter]
  omega

/-! ## A counter that is followed -/

/-- The condition on a step: at a dispatch at most `f` of the last batch have not gone through, and
the closing report is not a week old; no delivery writes it; and the counter does not fall back. -/
structure InTurn (f : Nat) (x : Closure) (c : UsageCategory) (v : Int) (s : LateUsage)
    (a : DateTime × LateAct) : Prop where
  tried : a.2 = .tick → s.due.length ≤ f ∧ a.1 - usageKeyBuffer ≤ x.createdAt
  unwritten : ∀ o t op touches, a.2 = .write o t op touches → writes a.2 ≠ some x.reportId
  counted : ∀ op, a.2 = .hash op →
    v ≤ (s.redis.apply op).value (usageKey x.orgId x.periodStart) c

/-- What the counter has reached is reserved. -/
def Caught (x : Closure) (c : UsageCategory) (v : Int) (s : LateUsage) : Prop :=
  ∃ l, s.ledger x.orgId x.periodStart = some l ∧ l.reports ≠ [] ∧ l.Secured c v

/-- The closing report waits for its check: it is in the last batch and near enough the head to be
in the next one too, or the batches since the `b`th have taken their share of the `n` ahead. -/
structure Waiting (f : Nat) (x : Closure) (c : UsageCategory) (v : Int) (since : DateTime)
    (b n : Nat) (s : LateUsage) : Prop where
  mem : x ∈ s.closures
  counter : v ≤ s.counter x c
  read : ∀ k ∈ s.checks, k.reportId = x.reportId → ∃ counts, k.raw = some counts ∧ v ≤ counts c
  place : (x.reportId ∈ s.due ∧ ∃ t ≤ s.clock - usageKeyBuffer,
      ahead Closure.order (s.window t) x.order < closureLimit) ∨
    s.front since x + (closureLimit - f) * (s.batches - b) ≤ n

/-- **The invariant** of a counter that is followed from a state on. -/
structure Followed (f : Nat) (x : Closure) (c : UsageCategory) (v : Int) (since : DateTime)
    (b n : Nat) (s : LateUsage) : Prop where
  sound : Sound s
  recent : since ≤ s.clock - usageKeyBuffer
  batches : b ≤ s.batches
  state : Caught x c v s ∨ Waiting f x c v since b n s

variable {f b n : Nat} {c : UsageCategory} {v : Int} {since : DateTime}

theorem Caught.step {id : Option UUID} (h : Caught x c v s) (hmoves : Moves s s' id) :
    Caught x c v s' := by
  obtain ⟨l, hl, hne, hsecured⟩ := h
  obtain ⟨ops, hops⟩ := hmoves.ledger _ _ l hl
  exact ⟨_, hops, UsageLedger.reports_run_ne_nil hne ops, hsecured.run hne ops⟩

/-- **A dispatch**: it takes the report, or takes a whole batch of those ahead, of which at most `f`
were ahead only because their check has not gone through. -/
theorem Waiting.tick (h : Waiting f x c v since b n s) (hs : Sound s) (hf : f < closureLimit)
    (hsince : since ≤ s.clock - usageKeyBuffer) (hb : b ≤ s.batches) (hnow : s.clock < now)
    (hturn : InTurn f x c v s (now, .tick)) (hstep : s.step (now, .tick) = some s') :
    Waiting f x c v since b n s' := by
  obtain ⟨htried, hyoung⟩ := hturn.tried rfl
  rw [LateUsage.step, if_pos hnow] at hstep
  cases hstep
  have hlater : s.clock - usageKeyBuffer ≤ now - usageKeyBuffer := sub_le_sub_right hnow.le _
  have hx : x ∈ s.window (now - usageKeyBuffer) :=
    List.mem_filter.mpr ⟨h.mem, decide_eq_true hyoung⟩
  have hinj := order_inj hs.ids (now - usageKeyBuffer)
  refine ⟨h.mem, h.counter, h.read, ?_⟩
  by_cases hin : x ∈ oldest Closure.order closureLimit (s.window (now - usageKeyBuffer))
  · exact .inl ⟨List.mem_map_of_mem hin, _, le_refl _, ahead_lt_of_mem hin⟩
  rcases h.place with ⟨-, t, ht, hahead⟩ | hle
  · -- what is near the head stays there
    have hcount := (window_sublist (s := s) (ht.trans hlater)).countP_le
      (p := fun y => decide (y.order < x.order))
    exact absurd (le_ahead_of_notMem hinj hx hin) (not_le.mpr (lt_of_le_of_lt hcount hahead))
  · have hbehind := left_behind (window_sublist (s := s) (hsince.trans hlater)).subperm hinj hx hin
      (p := fun y => decide (y.reportId ∈ s.recentClosures (now - usageKeyBuffer)))
      fun y hy => decide_eq_true (List.mem_map_of_mem hy)
    have hfront := ahead_le_front hs.ids since x
    refine .inr (le_trans ?_ hle)
    change (s.window since).countP (fun y => decide (y.order < x.order) &&
      !decide (y.reportId ∈ s.recentClosures (now - usageKeyBuffer))) +
        (closureLimit - f) * (s.batches + 1 - b) ≤ _
    rw [Nat.succ_sub hb, Nat.mul_succ]
    omega

/-- **Its own check**: what it has read is reserved now. -/
theorem Waiting.commit (h : Waiting f x c v since b n s) (hs : Sound s) {newId : UUID}
    (hstep : s.step (now, .commit x.reportId newId) = some s') : Caught x c v s' := by
  unfold LateUsage.step at hstep
  split at hstep
  · obtain ⟨s'', hact, rfl⟩ := Option.map_eq_some_iff.mp hstep
    simp only [act] at hact
    split at hact
    · cases hact
    obtain ⟨k, y, l, hk, hkid, hy, hyid, hl, rfl⟩ := commit_eq_some hact
    obtain rfl := List.inj_on_of_nodup_map hs.ids hy h.mem hyid
    obtain ⟨counts, hraw, hv⟩ := h.read k hk hkid
    obtain ⟨l₀, hl₀, hne⟩ := hs.recorded y hy
    obtain rfl := Option.some.inj (hl₀.symm.trans hl)
    have hsynced : LateCheck.synced k l₀ = l₀.step (.upsertUsageCounters counts) := by
      rw [LateCheck.synced, hraw]
    have hne' := UsageLedger.reports_step_ne_nil hne (.upsertUsageCounters counts)
    have hkept := (hs.kept _ _ l₀ hl).step (.upsertUsageCounters counts)
    refine ⟨_, put_ledger_self _ _ _, ?_, ?_⟩
    · rw [hsynced]
      exact UsageLedger.reports_step_ne_nil hne' _
    · rw [hsynced]
      exact (overage_mono _ hv).trans (hkept.secured hne' ⟨rfl, rfl⟩ c)
  · cases hstep

/-- A hash with a counter is not empty. -/
theorem isEmpty_of_pos {st : UsageStore} {key : String} (h : 0 < st.value key c) :
    st.isEmpty key = false := by
  by_contra hempty
  rw [Bool.not_eq_false, UsageStore.isEmpty, List.all_eq_true] at hempty
  have hnone := hempty c (UsageCategory.mem_all c)
  rw [Option.isNone_iff_eq_none] at hnone
  rw [UsageStore.value, hnone] at h
  exact absurd h (lt_irrefl _)

/-- **Any other step** leaves the report where it is. -/
theorem Waiting.frame (h : Waiting f x c v since b n s) (hs : Sound s) (hv : 0 < v)
    (hstep : s.step (now, a) = some s') (hturn : InTurn f x c v s (now, a)) (htick : a ≠ .tick)
    (hother : writes a ≠ some x.reportId) : Waiting f x c v since b n s' := by
  have hmoves := moves_step hstep
  have hserves := serves_step hstep
  obtain ⟨hbatches, hdue⟩ := hserves.due htick
  have hbefore := hs.stamps x h.mem
  obtain ⟨y, hy, -, heq⟩ := hmoves.mem h.mem
  refine ⟨heq hother ▸ hy, ?_, fun k hk hkid => ?_, ?_⟩
  · rcases hserves.redis with hsame | ⟨op, hop, happly⟩
    · rw [LateUsage.counter, hsame]
      exact h.counter
    · rw [LateUsage.counter, happly]
      exact hturn.counted op hop
  · rcases hserves.checks k hk with hk | ⟨z, hz, hzid, hraw⟩
    · exact h.read k hk hkid
    · obtain rfl := List.inj_on_of_nodup_map hs.ids hz h.mem (hzid.trans hkid)
      have hfull : s.redis.isEmpty (usageKey z.orgId z.periodStart) = false :=
        isEmpty_of_pos (lt_of_lt_of_le hv h.counter)
      rw [hfull] at hraw
      exact ⟨_, hraw, h.counter⟩
  · rcases h.place with ⟨hin, t, ht, hahead⟩ | hle
    · have hclock : s.clock - usageKeyBuffer ≤ s'.clock - usageKeyBuffer :=
        sub_le_sub_right hmoves.clock.le _
      exact .inl ⟨hdue _ hother hin, t, ht.trans hclock,
        lt_of_le_of_lt (hmoves.ahead_le hbefore t) hahead⟩
    · rw [hbatches]
      exact .inr ((Nat.add_le_add_right (hmoves.front_le hbefore hdue since) _).trans hle)

theorem Followed.step (h : Followed f x c v since b n s) (hf : f < closureLimit) (hv : 0 < v)
    (hturn : InTurn f x c v s (now, a)) (hstep : s.step (now, a) = some s') :
    Followed f x c v since b n s' := by
  have hmoves := moves_step hstep
  have hclock : s.clock - usageKeyBuffer ≤ s'.clock - usageKeyBuffer :=
    sub_le_sub_right hmoves.clock.le _
  have hbatches : s.batches ≤ s'.batches := by
    by_cases htick : a = .tick
    · subst htick
      unfold LateUsage.step at hstep
      split at hstep
      · cases hstep
        exact Nat.le_succ _
      · cases hstep
    · exact ((serves_step hstep).due htick).1.ge
  refine ⟨h.sound.step hstep, h.recent.trans hclock, h.batches.trans hbatches, ?_⟩
  rcases h.state with hcaught | hwaiting
  · exact .inl (hcaught.step hmoves)
  by_cases htick : a = .tick
  · subst htick
    have hnow : s.clock < now := by
      by_contra hnot
      rw [LateUsage.step, if_neg hnot] at hstep
      cases hstep
    exact .inr (hwaiting.tick h.sound hf h.recent h.batches hnow hturn hstep)
  by_cases hown : writes a = some x.reportId
  · cases a with
    | commit id newId =>
      obtain rfl : id = x.reportId := Option.some.inj hown
      exact .inl (hwaiting.commit h.sound hstep)
    | write o t op touches => exact absurd hown (hturn.unwritten o t op touches rfl)
    | _ => cases hown
  · exact .inr (hwaiting.frame h.sound hv hstep hturn htick hown)

theorem sound_reach {now : DateTime}
    (h : GuardedRun.Reach LateUsage.step GuardedRun.Always (initial now) s) : Sound s :=
  h.invariant (sound_initial now) fun _ _ _ hs _ hstep => hs.step hstep

/-- **Late usage is billed.**  At some state of a run the counter of a closed period has come to
`v`, there are `n` closing reports of the last week ahead of its own, and no check of it is under
way.  If from then on at every dispatch at most `f < 200` checks of the last batch have not gone
through, the report is not a week old and no delivery writes it, and the counter does not fall
back, then after more than `n / (200 - f)` batches its check is one of those `f`, or the units of
all that was staged for the period come to what `v` has above the allowance.  A check that has read
goes through in every reachable state. -/
theorem late_usage_billed {t₀ : DateTime} {s₁ s₂ : LateUsage} (hf : f < closureLimit)
    (hrun : GuardedRun.Reach LateUsage.step GuardedRun.Always (initial t₀) s₁)
    (hx : x ∈ s₁.closures) (hfree : s₁.checked x.reportId = false) (hv : 0 < v)
    (hcounter : v ≤ s₁.counter x c)
    (hrest : GuardedRun.Reach LateUsage.step (InTurn f x c v) s₁ s₂)
    (hmany : ahead Closure.order (s₁.window (s₁.clock - usageKeyBuffer)) x.order /
      (closureLimit - f) < s₂.batches - s₁.batches) :
    (x.reportId ∈ s₂.due ∨ ∃ l, s₂.ledger x.orgId x.periodStart = some l ∧
      overage (l.frozenBase c) v ≤ l.stagedUnits c) ∧
      ∀ k ∈ s₂.checks, ∀ now newId, s₂.clock < now →
        (∀ y ∈ s₂.closures, y.reportId ≠ newId) →
        (s₂.step (now, .commit k.reportId newId)).isSome := by
  have hsound := sound_reach hrun
  have hfollowed : Followed f x c v (s₁.clock - usageKeyBuffer) s₁.batches
      (ahead Closure.order (s₁.window (s₁.clock - usageKeyBuffer)) x.order) s₂ := by
    refine hrest.invariant ⟨hsound, le_refl _, le_refl _, .inr ⟨hx, hcounter, ?_, .inr ?_⟩⟩
      fun _ _ _ hs hturn hstep => hs.step hf hv hturn hstep
    · intro k hk hkid
      have hlocked : s₁.checked x.reportId = true :=
        List.any_eq_true.mpr ⟨k, hk, decide_eq_true hkid⟩
      rw [hfree] at hlocked
      cases hlocked
    · rw [Nat.sub_self, Nat.mul_zero, Nat.add_zero]
      refine List.countP_mono_left fun y _ hy => ?_
      exact (Bool.and_eq_true _ _ ▸ hy).1
  refine ⟨?_, fun k hk now newId hnow hnew => hfollowed.sound.commits hk hnow hnew⟩
  rcases hfollowed.state with ⟨l, hl, hne, hsecured⟩ | hwaiting
  · exact .inr ⟨l, hl, hsecured.staged (hfollowed.sound.kept _ _ l hl) hne⟩
  · rcases hwaiting.place with ⟨hin, -⟩ | hle
    · exact .inl hin
    · exfalso
      have hlt := (Nat.div_lt_iff_lt_mul (Nat.sub_pos_of_lt hf)).mp hmany
      rw [Nat.mul_comm] at hlt
      omega

/-- A period whose closing report charges nothing; then five traces above the allowance come in. -/
def closedPeriod : List (DateTime × LateAct) :=
  let sub : Subscription :=
    ⟨"org", .pro, .active, some "cus", some "sub", 0, DateTime.days 30, none⟩
  [(1, .subscribe "org" (some sub)), (2, .openRecord "org" 0 (DateTime.days 30)),
    (3, .write "org" 0 (.stage ⟨sub, none, some "in", false, "closing", 3⟩) false),
    (4, .hash (.increment (usageKey "org" 0) "late" .traces
      ((SubscriptionPlan.pro.base .traces).toNat + 5) (-1)))]

/-- Its closing report. -/
def closingReport : Closure := ⟨"closing", "org", 0, 3, 3⟩

/-- A check that fails, and one that does not. -/
def twoChecks : List (DateTime × LateAct) :=
  [(5, .tick), (6, .read "closing"), (7, .fail "closing"), (8, .tick), (9, .read "closing"),
    (10, .commit "closing" "rest")]

/-- A test of the condition. -/
def inTurn (f : Nat) (x : Closure) (c : UsageCategory) (v : Int) (s : LateUsage)
    (a : DateTime × LateAct) : Bool :=
  match a.2 with
  | .tick => s.due.length ≤ f && a.1 - usageKeyBuffer ≤ x.createdAt
  | .write .. => writes a.2 ≠ some x.reportId
  | .hash op => v ≤ (s.redis.apply op).value (usageKey x.orgId x.periodStart) c
  | _ => true

theorem inTurn_of_test (s : LateUsage) (a : DateTime × LateAct)
    (h : inTurn f x c v s a = true) : InTurn f x c v s a := by
  obtain ⟨now, a⟩ := a
  refine ⟨?_, ?_, ?_⟩
  · rintro rfl
    simpa [inTurn] using h
  · rintro o t op touches rfl
    simpa [inTurn] using h
  · rintro op rfl
    simpa [inTurn] using h

/-- The five traces are staged. -/
theorem late_usage_billed_second_check :
    ∃ s l, GuardedRun.Reach LateUsage.step GuardedRun.Always (initial 0) s ∧
      s.ledger "org" 0 = some l ∧ 5 ≤ l.stagedUnits .traces := by
  have hclosed : (GuardedRun.run LateUsage.step (initial 0) closedPeriod).map (fun s =>
      (s.closures, s.checked "closing", s.counter closingReport .traces, s.batches,
        ahead Closure.order (s.window (s.clock - usageKeyBuffer)) closingReport.order)) =
      some ([closingReport], false, SubscriptionPlan.pro.base .traces + 5, 0, 0) := by
    decide +kernel
  have hchecked : ((GuardedRun.run LateUsage.step (initial 0) closedPeriod).bind fun s =>
      GuardedRun.run (GuardedRun.checked LateUsage.step
        (inTurn 1 closingReport .traces (SubscriptionPlan.pro.base .traces + 5))) s twoChecks).map
      (fun s => (s.due, s.batches, (s.ledger "org" 0).map fun l => l.frozenBase .traces)) =
      some ([], 2, some (SubscriptionPlan.pro.base .traces)) := by
    decide +kernel
  obtain ⟨s₁, hs₁, hview₁⟩ := Option.map_eq_some_iff.mp hclosed
  obtain ⟨s₂, hs₂, hview₂⟩ := Option.map_eq_some_iff.mp hchecked
  rw [hs₁, Option.bind_some] at hs₂
  obtain ⟨hclosures, hfree, hcounter, hbatches, hahead⟩ := by
    simpa only [Prod.mk.injEq] using hview₁
  obtain ⟨hdue, hbatches₂, hbase⟩ := by simpa only [Prod.mk.injEq] using hview₂
  have hreach := GuardedRun.reach_of_run hs₁
  have hrest := GuardedRun.Reach.initial.run_checked inTurn_of_test hs₂
  have hmem : closingReport ∈ s₁.closures := hclosures ▸ List.mem_singleton_self _
  obtain ⟨hbilled, -⟩ := late_usage_billed (by decide) hreach hmem hfree (by decide) hcounter.ge
    hrest (by rw [hahead, hbatches, hbatches₂]; decide)
  rcases hbilled with hin | ⟨l, hl, hstaged⟩
  · rw [hdue] at hin
    cases hin
  · change s₂.ledger "org" 0 = some l at hl
    rw [hl] at hbase
    have hfrozen : l.frozenBase .traces = SubscriptionPlan.pro.base .traces :=
      Option.some.inj hbase
    rw [hfrozen] at hstaged
    refine ⟨s₂, l, ?_, hl, hstaged⟩
    exact hrest.invariant hreach fun _ _ _ hs _ hstep => .step hs trivial hstep

end LateUsage
end PandaProbe
