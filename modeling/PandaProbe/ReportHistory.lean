import PandaProbe.GuardedRun
import PandaProbe.ReportDesk

/-! # The history of a report is append-only

What a committed round of `deliver` can do to a report is `Advances`: staging's part of the
row stays, recorded items stay, and a pending report may be settled.  Each kind of write
has one lemma.

A worker's copy of the row is the row itself as long as it holds the row's lock
(`Tended`), so every commit moves the stored row by `Advances`.  `DeskStep` says everything
a step can do to the tables, which is what later invariants are proved from; the claims
about whole runs follow by induction.
-/
namespace PandaProbe

/-- A report moves on: what staging fixed is kept, recorded items are kept, and the status
stays or leaves pending for good. -/
structure Advances (r r' : BillingReport) : Prop where
  id : r'.id = r.id
  record : r'.usageRecordId = r.usageRecordId
  customer : r'.stripeCustomerId = r.stripeCustomerId
  reservation : r'.reservation = r.reservation
  items : ∀ c i, r.stripeItemIds c = some i → r'.stripeItemIds c = some i
  status : r'.status = r.status ∨ (r.status = .pending ∧ r'.status ≠ .pending)
  closing : r'.closingInvoiceId = r.closingInvoiceId

namespace Advances
variable {r r' r'' : BillingReport}

theorem refl (r : BillingReport) : Advances r r :=
  ⟨rfl, rfl, rfl, rfl, fun _ _ h => h, Or.inl rfl, rfl⟩

theorem trans (h : Advances r r') (h' : Advances r' r'') : Advances r r'' where
  id := h'.id.trans h.id
  record := h'.record.trans h.record
  customer := h'.customer.trans h.customer
  reservation := h'.reservation.trans h.reservation
  items := fun c i hi => h'.items c i (h.items c i hi)
  status := by
    rcases h.status with hs | ⟨hp, hs⟩
    · rw [← hs]
      exact h'.status
    · rcases h'.status with hs' | ⟨hp', -⟩
      · exact Or.inr ⟨hp, hs' ▸ hs⟩
      · exact absurd hp' hs
  closing := h'.closing.trans h.closing

/-- An unresolved charge was unresolved before, from the same count. -/
theorem unresolved (h : Advances r r') {c : UsageCategory}
    {q : ChargeRequest} (hq : r'.requests c = some q) (hitem : r'.stripeItemIds c = none) :
    ∃ q₀, r.requests c = some q₀ ∧ q₀.metadata.fromCount = q.metadata.fromCount ∧
      r.stripeItemIds c = none := by
  have hspan : (r.requests c).map ChargeRequest.span = some q.span := by
    have := congrFun (congrArg Reservation.span h.reservation) c
    simp only [BillingReport.reservation, hq, Option.map_some] at this
    exact this.symm
  obtain ⟨q₀, hq₀, hs⟩ := Option.map_eq_some_iff.mp hspan
  refine ⟨q₀, hq₀, congrArg Prod.fst hs, ?_⟩
  cases hi : r.stripeItemIds c with
  | none => rfl
  | some i =>
    rw [h.items c i hi] at hitem
    cases hitem

end Advances

/-! ## The writes of a round -/

namespace BillingReport
variable {r : BillingReport} {c : UsageCategory}

theorem nextCategory_spec (h : r.nextCategory = some c) :
    (r.requests c).isSome = true ∧ r.stripeItemIds c = none := by
  have hc := List.find?_some h
  simpa using hc

/-- No category is left exactly when every requested one has a recorded item. -/
theorem nextCategory_eq_none :
    r.nextCategory = none ↔ ∀ c, (r.requests c).isSome = true → (r.stripeItemIds c).isSome = true := by
  unfold nextCategory
  rw [List.find?_eq_none]
  constructor
  · intro h c hc
    have hno := h c (UsageCategory.mem_all c)
    simp only [hc, Bool.true_and, Option.isNone_iff_eq_none] at hno
    exact Option.isSome_iff_ne_none.mpr hno
  · intro h c _ hboth
    simp only [Bool.and_eq_true, Option.isNone_iff_eq_none] at hboth
    have := h c hboth.1
    rw [hboth.2] at this
    cases this

/-- A pending report whose next category asks for the interval of `params`. -/
structure AtWork (r : BillingReport) (c : UsageCategory) (params : ChargeRequest) : Prop where
  pending : r.status = .pending
  next : r.nextCategory = some c
  span : (r.requests c).map ChargeRequest.span = some params.span

theorem AtWork.dropInvoice {params : ChargeRequest} (h : AtWork r c params) :
    AtWork r c params.dropInvoice := ⟨h.pending, h.next, h.span⟩

/-- Replacing a request by one of the same interval. -/
theorem AtWork.reservation {params q : ChargeRequest} (h : AtWork r c params)
    (hq : q.span = params.span) (att : UsageCategory → Option DateTime) :
    BillingReport.reservation
      { r with requests := Function.update r.requests c (some q), attemptedAt := att } =
      r.reservation := by
  obtain ⟨q₀, hq₀, hspan⟩ := Option.map_eq_some_iff.mp h.span
  simp only [BillingReport.reservation, Reservation.mk.injEq, true_and]
  funext d
  exact map_span_update hq₀ (hq.trans hspan.symm) d

theorem advances_attempt {params : ChargeRequest} (h : AtWork r c params) (now : DateTime) :
    Advances r (r.attempt c params now) :=
  ⟨rfl, rfl, rfl, h.reservation rfl _, fun _ _ hi => hi, Or.inl rfl, rfl⟩

theorem advances_carryOver {params : ChargeRequest} (h : AtWork r c params) :
    Advances r (r.carryOver c params) :=
  ⟨rfl, rfl, rfl, h.reservation (ChargeRequest.carryover_span params) _, fun _ _ hi => hi,
    Or.inl rfl, rfl⟩

/-- The category written has no item yet, so no recorded item is replaced. -/
theorem advances_recordItem (h : r.nextCategory = some c) (item : String) :
    Advances r (r.recordItem c item) := by
  refine ⟨rfl, rfl, rfl, rfl, fun d i hi => ?_, Or.inl rfl, rfl⟩
  have hne : d ≠ c := by
    rintro rfl
    rw [(nextCategory_spec h).2] at hi
    cases hi
  show Function.update r.stripeItemIds c (some item) d = some i
  rw [Function.update_of_ne hne, hi]

theorem advances_review (h : r.status = .pending) (reason : String) :
    Advances r (r.review reason) :=
  ⟨rfl, rfl, rfl, rfl, fun _ _ hi => hi, Or.inr ⟨h, nofun⟩, rfl⟩

theorem advances_confirm (h : r.status = .pending) : Advances r r.confirm :=
  ⟨rfl, rfl, rfl, rfl, fun _ _ hi => hi, Or.inr ⟨h, nofun⟩, rfl⟩

theorem advances_note (message : Option String) : Advances r { r with lastError := message } :=
  ⟨rfl, rfl, rfl, rfl, fun _ _ hi => hi, Or.inl rfl, rfl⟩

end BillingReport

/-! ## Who holds what -/

open BillingReport

/-- What a worker knows inside a round. -/
def Pc.Sane : Pc → Prop
  | .idle => True
  | .locked _ => True
  | .choosing report c params _ => AtWork report c params
  | .chosen report c params _ => AtWork report c params
  | .scanning report c => report.status = .pending ∧ report.nextCategory = some c
  | .calling report c request => AtWork report c request.params
  | .answered report c _ => report.status = .pending ∧ report.nextCategory = some c
  | .rejected report c params _ => AtWork report c params
  | .carrying report c params => AtWork report c params

/-- What a worker knows where it is. -/
def Post.Sane : Post → Prop
  | .delivering _ p => p.Sane
  | .confirming _ report => report.status = .pending ∧ report.nextCategory = none
  | .finishing _ report _ _ => report.status = .pending ∧ report.nextCategory = none
  | .noting report => report.status = .pending
  | _ => True

/-- What `finish` has read, if the worker is in it. -/
def Post.reading : Post → Option (BillingReport × UsageRecord × List BillingReport)
  | .finishing _ report usage read => some (report, usage, read)
  | _ => none

/-- The `stage` call of an act, if it is one. -/
def DeskAct.asks : DeskAct → Option (DateTime × StageArgs)
  | .stage t a => some (t, a)
  | _ => none

namespace ReportDesk
variable {s s' : ReportDesk} {w : Nat} {r row : BillingReport} {p : Post}

/-- **What the tables and the workers keep**: report ids are unique, a worker's copy is the
stored row and its lock is the worker's, and a reported report has all its items. -/
structure Tended (s : ReportDesk) : Prop where
  nodup : (s.db.reports.map BillingReport.id).Nodup
  held : ∀ w r, (s.post w).copy = some r → s.rowLock r.id = some w ∧ r ∈ s.db.reports
  sane : ∀ w, (s.post w).Sane
  settled : ∀ r ∈ s.db.reports, r.status = .reported → r.nextCategory = none

theorem tended_of_opened (h : s.Opened) : Tended s where
  nodup := by rw [h.unstaged]; exact List.nodup_nil
  held := by
    intro w r hr
    rw [h.idle w] at hr
    cases hr
  sane := fun w => by rw [h.idle w]; trivial
  settled := by
    rw [h.unstaged]
    exact fun r hr => absurd hr List.not_mem_nil

/-- Two stored reports of one id are the same. -/
theorem Tended.unique (h : Tended s) {q : BillingReport} (hr : r ∈ s.db.reports)
    (hq : q ∈ s.db.reports) (hid : q.id = r.id) : q = r :=
  List.inj_on_of_nodup_map h.nodup hq hr hid

theorem Tended.sane_update (h : Tended s) (hsane : p.Sane) (v : Nat) :
    (Function.update s.post w p v).Sane :=
  (Function.forall_update_iff s.post (fun _ q => q.Sane)).mpr ⟨hsane, fun v _ => h.sane v⟩ v

/-- The worker moves on with the copy it has. -/
theorem Tended.goto (h : Tended s) (hcopy : p.copy = (s.post w).copy) (hsane : p.Sane) :
    Tended (s.goto w p) where
  nodup := h.nodup
  held := by
    intro v q hq
    by_cases hv : v = w
    · subst hv
      simp only [ReportDesk.goto, Function.update_self] at hq
      exact h.held v q (hcopy ▸ hq)
    · simp only [ReportDesk.goto, Function.update_of_ne hv] at hq
      exact h.held v q hq
  sane := h.sane_update hsane
  settled := h.settled

/-- The locks of the usage rows and the usage rows themselves do not matter. -/
theorem Tended.of_frame (h : Tended s) (hdb : s'.db.reports = s.db.reports)
    (hlock : s'.rowLock = s.rowLock) (hpost : s'.post = s.post) : Tended s' where
  nodup := by rw [hdb]; exact h.nodup
  held := by rw [hdb, hlock, hpost]; exact h.held
  sane := by rw [hpost]; exact h.sane
  settled := by rw [hdb]; exact h.settled

/-- `lock_report` on a free row. -/
theorem Tended.acquire (h : Tended s) {id : UUID} (hfree : s.rowLock id = none)
    (hfind : s.db.reports.find? (fun r => r.id = id) = some r) (hcopy : p.copy = some r)
    (hsane : p.Sane) :
    Tended (ReportDesk.goto { s with rowLock := Function.update s.rowLock id (some w) } w p) := by
  have hid : r.id = id := by simpa using List.find?_some hfind
  refine ⟨h.nodup, fun v q hq => ?_, h.sane_update hsane, h.settled⟩
  by_cases hv : v = w
  · subst hv
    simp only [ReportDesk.goto, Function.update_self, hcopy, Option.some.injEq] at hq
    subst hq
    exact ⟨by rw [hid]; exact Function.update_self .., List.mem_of_find?_eq_some hfind⟩
  · simp only [ReportDesk.goto, Function.update_of_ne hv] at hq
    obtain ⟨hlock, hmem⟩ := h.held v q hq
    have hne : q.id ≠ id := by
      rintro rfl
      rw [hfree] at hlock
      cases hlock
    exact ⟨(Function.update_of_ne hne ..).trans hlock, hmem⟩

/-- A committed row of the worker's report.  With the row as it was this is a rollback. -/
theorem Tended.commitRow (h : Tended s) (hold : (s.post w).copy = some r) (hadv : Advances r row)
    (hdone : row.status = .reported → row.nextCategory = none) (hcopy : p.copy = none)
    (hsane : p.Sane) : Tended (s.commitRow w row p) := by
  obtain ⟨hlock, hmem⟩ := h.held w r hold
  have hid := hadv.id
  refine ⟨?_, fun v q hq => ?_, h.sane_update hsane, fun q hq hs => ?_⟩
  · have hmap : (s.db.putReport row).reports.map BillingReport.id =
        s.db.reports.map BillingReport.id := by
      rw [BillingDb.putReport_reports, List.map_map]
      refine List.map_congr_left fun q _ => ?_
      simp only [Function.comp_apply]
      split
      next he => exact he.symm
      · rfl
    show ((s.db.putReport row).reports.map BillingReport.id).Nodup
    rw [hmap]
    exact h.nodup
  · by_cases hv : v = w
    · subst hv
      simp only [ReportDesk.commitRow, leave, Function.update_self, hcopy] at hq
      cases hq
    · simp only [ReportDesk.commitRow, leave, Function.update_of_ne hv] at hq
      obtain ⟨hlock', hmem'⟩ := h.held v q hq
      -- another worker's report is another row
      have hne : q.id ≠ row.id := by
        intro he
        rw [he, hid, hlock] at hlock'
        exact hv (Option.some.inj hlock').symm
      refine ⟨(Function.update_of_ne hne ..).trans hlock', ?_⟩
      exact List.mem_map.mpr ⟨q, hmem', if_neg hne⟩
  · obtain ⟨q₀, hq₀, rfl⟩ := List.mem_map.mp hq
    by_cases he : q₀.id = row.id
    · simp only [he, if_true] at hs ⊢
      exact hdone hs
    · simp only [he, if_false] at hs ⊢
      exact h.settled q₀ hq₀ hs

/-- A rollback. -/
theorem Tended.leave (h : Tended s) (hold : (s.post w).copy = some r) (hcopy : p.copy = none)
    (hsane : p.Sane) : Tended (s.leave w r.id p) := by
  obtain ⟨-, hmem⟩ := h.held w r hold
  have hsame : s.db.putReport r = s.db := by
    unfold BillingDb.putReport
    congr 1
    refine (List.map_congr_left fun q hq => ?_).trans (List.map_id _)
    show (if q.id = r.id then r else q) = q
    split
    next he => exact (h.unique hmem hq he).symm
    · rfl
  have := h.commitRow hold (Advances.refl r) (h.settled r hmem) hcopy hsane
  unfold ReportDesk.commitRow at this
  rwa [hsame] at this

/-- A staged report that is not pending has no category left. -/
theorem stageReport_settled {usage : UsageRecord} {previous : List BillingReport} {a : StageArgs}
    {customer : String} (h : (stageReport usage previous a customer).status ≠ .pending) :
    (stageReport usage previous a customer).nextCategory = none := by
  refine nextCategory_eq_none.mpr fun c hc => ?_
  have hnone := stageRequest_none_of_status h c
  rw [show (stageReport usage previous a customer).requests c = none from hnone] at hc
  cases hc

/-- One more report, under an id of its own. -/
theorem Tended.addReport (h : Tended s) (hid : ∀ q ∈ s.db.reports, q.id ≠ r.id)
    (hdone : r.status = .reported → r.nextCategory = none) :
    Tended { s with db := s.db.addReport r } where
  nodup := by
    show ((s.db.reports ++ [r]).map BillingReport.id).Nodup
    rw [List.map_append, List.nodup_append]
    refine ⟨h.nodup, List.nodup_singleton _, ?_⟩
    intro x hx y hy
    obtain ⟨q, hq, rfl⟩ := List.mem_map.mp hx
    obtain rfl : y = r.id := by simpa using hy
    exact hid q hq
  held := fun v q hq => ⟨(h.held v q hq).1, List.mem_append_left _ (h.held v q hq).2⟩
  sane := h.sane
  settled := by
    intro q hq hs
    rcases List.mem_append.mp hq with hq | hq
    · exact h.settled q hq hs
    · obtain rfl : q = r := by simpa using hq
      exact hdone hs

/-! ## What a step can do -/

/-- **Everything a step can do to the tables**, with the locks of the usage rows and what the
workers in `finish` have read.  Only the `stage` call that was asked for stores a report. -/
inductive DeskStep (asked : Option (DateTime × StageArgs)) (s s' : ReportDesk) : Prop
  | quiet (db : s'.db = s.db) (lock : s'.usageLock = s.usageLock)
      (reading : ∀ v, (s'.post v).reading = (s.post v).reading)
  | staged (t : DateTime) (a : StageArgs) (usage : UsageRecord) (customer : String)
      (free : s.usageLock t = none) (usage_eq : s.db.usage t = some usage)
      (db : s'.db = s.db.addReport (stageReport usage (byCreation (s.db.reportsFor t)) a customer))
      (lock : s'.usageLock = s.usageLock)
      (reading : ∀ v, (s'.post v).reading = (s.post v).reading)
      (created : stageOn usage (s.db.reportsFor t) a =
        .ok (.created (stageReport usage (byCreation (s.db.reportsFor t)) a customer)))
      (asked_eq : asked = some (t, a))
  | counted (t : DateTime) (free : s.usageLock t = none) (reports : s'.db.reports = s.db.reports)
      (usage : ∀ x u, s.db.usage x = some u → ∃ u', s'.db.usage x = some u' ∧
        u'.reported = u.reported ∧ (x ≠ t → u' = u))
      (lock : s'.usageLock = s.usageLock)
      (reading : ∀ v, (s'.post v).reading = (s.post v).reading)
      (billed : ∀ x u, s.db.usage x = some u → u.billed = true →
        ∀ u', s'.db.usage x = some u' → u'.billed = true)
      (subscription : s'.db.subscription = s.db.subscription)
  | moved (r row : BillingReport) (mem : r ∈ s.db.reports) (adv : Advances r row)
      (status : row.status = .reported → r.status = .reported)
      (db : s'.db = s.db.putReport row) (lock : s'.usageLock = s.usageLock)
      (reading : ∀ v, (s'.post v).reading = (s.post v).reading)
  | read (w : Nat) (report : BillingReport) (usage : UsageRecord)
      (free : s.usageLock report.usageRecordId = none)
      (usage_eq : s.db.usage report.usageRecordId = some usage)
      (db : s'.db = s.db)
      (lock : s'.usageLock = Function.update s.usageLock report.usageRecordId (some w))
      (reading : ∀ v, (s'.post v).reading = if v = w then
        some (report, usage, s.db.reportsFor report.usageRecordId) else (s.post v).reading)
  | finished (w : Nat) (report : BillingReport) (usage : UsageRecord) (read : List BillingReport)
      (was : (s.post w).reading = some (report, usage, read))
      (db : s'.db = (s.db.putUsage (finishUsage usage read report.id)).putReport report.confirm)
      (lock : s'.usageLock = Function.update s.usageLock report.usageRecordId none)
      (reading : ∀ v, (s'.post v).reading = if v = w then none else (s.post v).reading)
  | abandoned (w : Nat) (report : BillingReport) (usage : UsageRecord) (read : List BillingReport)
      (was : (s.post w).reading = some (report, usage, read)) (db : s'.db = s.db)
      (lock : s'.usageLock = Function.update s.usageLock report.usageRecordId none)
      (reading : ∀ v, (s'.post v).reading = if v = w then none else (s.post v).reading)

/-- Moving one worker that is not in `finish` to a place that is not in it either. -/
theorem reading_update (hold : (s.post w).reading = none) (hnew : p.reading = none) (v : Nat) :
    (Function.update s.post w p v).reading = (s.post v).reading := by
  by_cases hv : v = w
  · subst hv
    rw [Function.update_self, hnew, hold]
  · rw [Function.update_of_ne hv]

theorem reading_update_ite (q : Option (BillingReport × UsageRecord × List BillingReport))
    (hnew : p.reading = q) (v : Nat) :
    (Function.update s.post w p v).reading = if v = w then q else (s.post v).reading := by
  by_cases hv : v = w
  · subst hv
    rw [Function.update_self, hnew, if_pos rfl]
  · rw [Function.update_of_ne hv, if_neg hv]

/-- What is to show of a step that is no `stage` call. -/
def Proceeds (s s' : ReportDesk) : Prop := Tended s' ∧ DeskStep none s s'

theorem Tended.proceeds_goto (h : Tended s) (hcopy : p.copy = (s.post w).copy) (hsane : p.Sane)
    (hold : (s.post w).reading = none) (hnew : p.reading = none) : Proceeds s (s.goto w p) :=
  ⟨h.goto hcopy hsane, .quiet rfl rfl (reading_update hold hnew)⟩

theorem Tended.proceeds_leave (h : Tended s) (hr : (s.post w).copy = some r)
    (hcopy : p.copy = none) (hsane : p.Sane) (hold : (s.post w).reading = none)
    (hnew : p.reading = none) : Proceeds s (s.leave w r.id p) :=
  ⟨h.leave hr hcopy hsane, .quiet rfl rfl (reading_update hold hnew)⟩

theorem Tended.proceeds_commitRow (h : Tended s) (hr : (s.post w).copy = some r)
    (hadv : Advances r row) (hstatus : row.status ≠ .reported) (hcopy : p.copy = none)
    (hsane : p.Sane) (hold : (s.post w).reading = none) (hnew : p.reading = none) :
    Proceeds s (s.commitRow w row p) := by
  refine ⟨h.commitRow hr hadv (fun hs => absurd hs hstatus) hcopy hsane, ?_⟩
  exact .moved r row (h.held w r hr).2 hadv (fun hs => absurd hs hstatus) rfl rfl
    (reading_update hold hnew)

/-! ### Staging and the usage rows -/

theorem proceeds_stage {t : DateTime} {a : StageArgs} (h : Tended s)
    (hs : s.stage t a = some s') : Tended s' ∧ DeskStep (some (t, a)) s s' := by
  have hsame : Tended s ∧ DeskStep (some (t, a)) s s := ⟨h, .quiet rfl rfl fun _ => rfl⟩
  unfold stage at hs
  split at hs
  · cases hs
  next hfree =>
    split at hs
    · cases hs
      exact hsame
    next hnew =>
      split at hs
      · cases hs
        exact hsame
      next db hdb =>
        cases hs
        rcases BillingDb.stage_stored hdb with rfl | ⟨u, r, hu, rfl, hr⟩
        · exact hsame
        · obtain ⟨customer, rfl, -⟩ := stageOn_created hr
          refine ⟨h.addReport (fun q hq he => hnew ?_) (fun hst => ?_), ?_⟩
          · have hid : q.id = a.reportId := he
            exact List.any_eq_true.mpr ⟨q, hq, by simpa using hid⟩
          · exact stageReport_settled (by rw [hst]; nofun)
          · exact .staged t a u customer hfree hu rfl rfl (fun _ => rfl) hr rfl

theorem proceeds_upsert {orgId : UUID} {t stop : DateTime} {counts : UsageCategory → Int}
    (h : Tended s) (hs : s.writeUsage t (fun db => db.upsertUsageCounters orgId t stop counts) =
      some s') : Proceeds s s' := by
  unfold writeUsage at hs
  split at hs
  · cases hs
  next hfree =>
    cases hs
    refine ⟨h.of_frame rfl rfl rfl, .counted t hfree rfl (fun x u hu => ?_) rfl (fun _ => rfl)
      (fun x u hu hb u' hu' => ?_) rfl⟩
    · simp only [BillingDb.upsertUsageCounters_usage]
      by_cases hx : x = t
      · subst hx
        refine ⟨{ u with count := counts }, ?_, rfl, fun hne => absurd rfl hne⟩
        rw [if_pos rfl, hu]
        rfl
      · exact ⟨u, by rw [if_neg hx, hu], rfl, fun _ => rfl⟩
    · simp only [BillingDb.upsertUsageCounters_usage] at hu'
      split at hu'
      next hx =>
        subst hx
        rw [hu] at hu'
        cases hu'
        exact hb
      · rw [hu] at hu'
        cases hu'
        exact hb

theorem proceeds_markBilled {t : DateTime} {i : Option String} (h : Tended s)
    (hs : s.writeUsage t (fun db => db.markBilled t i) = some s') : Proceeds s s' := by
  unfold writeUsage at hs
  split at hs
  · cases hs
  next hfree =>
    cases hs
    refine ⟨h.of_frame (BillingDb.markBilled_reports ..) rfl rfl,
      .counted t hfree (BillingDb.markBilled_reports ..) (fun x u hu => ?_) rfl (fun _ => rfl)
        (fun x u hu hb u' hu' => ?_) (BillingDb.markBilled_subscription ..)⟩
    · simp only [BillingDb.markBilled_usage]
      by_cases hx : x = t
      · subst hx
        refine ⟨{ u with billed := true, stripeInvoiceId := i }, ?_, rfl, fun hne => absurd rfl hne⟩
        rw [if_pos rfl, hu]
        rfl
      · exact ⟨u, by rw [if_neg hx, hu], rfl, fun _ => rfl⟩
    · simp only [BillingDb.markBilled_usage] at hu'
      split at hu'
      next hx =>
        subst hx
        rw [hu] at hu'
        cases hu'
        rfl
      · rw [hu] at hu'
        cases hu'
        exact hb

/-! ### The rounds of `deliver` -/

theorem proceeds_lock (h : Tended s) (hs : s.lock w = some s') : Proceeds s s' := by
  unfold lock at hs
  split at hs
  next safely id hp =>
    have hread : (s.post w).reading = none := by rw [hp]; rfl
    split at hs
    next report hfree hfind =>
      cases hs
      exact ⟨h.acquire hfree hfind rfl trivial, .quiet rfl rfl (reading_update hread rfl)⟩
    · cases hs
      exact h.proceeds_goto (by rw [hp]; rfl) trivial hread rfl
  · cases hs

theorem proceeds_start {safely : Bool} {report : BillingReport} (now : DateTime) (h : Tended s)
    (hp : s.post w = .delivering safely (.locked report)) :
    Proceeds s (s.start w safely report now) := by
  have hread : (s.post w).reading = none := by rw [hp]; rfl
  have hcopy : (s.post w).copy = some report := by rw [hp]; rfl
  unfold start
  split
  · exact h.proceeds_leave hcopy rfl trivial hread rfl
  next hstatus =>
    -- past the status check the copy is pending
    have hpending : report.status = .pending := not_not.mp hstatus
    split
    next hnext => exact h.proceeds_goto hcopy.symm ⟨hpending, hnext⟩ hread rfl
    next c hnext =>
      split
      · exact h.proceeds_leave hcopy rfl trivial hread rfl
      next params hreq =>
        have hwork : AtWork report c params := ⟨hpending, hnext, by rw [hreq]; rfl⟩
        split
        · exact h.proceeds_goto hcopy.symm hwork hread rfl
        next attempted _ =>
          split
          · exact h.proceeds_goto hcopy.symm ⟨hpending, hnext⟩ hread rfl
          · exact h.proceeds_goto hcopy.symm hwork hread rfl

theorem proceeds_retrieve {draft : Bool} (h : Tended s) (hs : s.retrieve w draft = some s') :
    Proceeds s s' := by
  unfold retrieve at hs
  split at hs
  next safely report c params now hp =>
    cases hs
    have hwork : AtWork report c params := by simpa [hp, Post.Sane, Pc.Sane] using h.sane w
    refine h.proceeds_goto (by rw [hp]; rfl) ?_ (by rw [hp]; rfl) rfl
    show AtWork report c (if _ then params.dropInvoice else params)
    split
    · exact hwork.dropInvoice
    · exact hwork
  · cases hs

theorem proceeds_commitIntent {sub : Option Subscription} (h : Tended s)
    (hs : s.commitIntent w sub = some s') : Proceeds s s' := by
  unfold commitIntent at hs
  split at hs
  next safely report c params now hp =>
    have hwork : AtWork report c params := by simpa [hp, Post.Sane, Pc.Sane] using h.sane w
    have hcopy : (s.post w).copy = some report := by rw [hp]; rfl
    have hread : (s.post w).reading = none := by rw [hp]; rfl
    split at hs
    · cases hs
      exact h.proceeds_commitRow hcopy (advances_review hwork.pending _) nofun rfl trivial hread rfl
    · cases hs
      have hstatus : (report.attempt c params now).status ≠ .reported := by
        rw [show (report.attempt c params now).status = report.status from rfl, hwork.pending]
        nofun
      exact h.proceeds_commitRow hcopy (advances_attempt hwork now) hstatus rfl trivial hread rfl
  · cases hs

/-- Recording an item, found or just created. -/
theorem Tended.proceeds_recordItem (h : Tended s) {safely : Bool} {report : BillingReport}
    {c : UsageCategory} (item : String) (hcopy : (s.post w).copy = some report)
    (hread : (s.post w).reading = none)
    (hwork : report.status = .pending ∧ report.nextCategory = some c) :
    Proceeds s (s.commitRow w (report.recordItem c item) (.looping safely report.id)) := by
  have hstatus : (report.recordItem c item).status ≠ .reported := by
    rw [show (report.recordItem c item).status = report.status from rfl, hwork.1]
    nofun
  exact h.proceeds_commitRow hcopy (advances_recordItem hwork.2 item) hstatus rfl trivial hread rfl

theorem proceeds_scan {listed : List StripeItem} (h : Tended s)
    (hs : s.scan w listed = some s') : Proceeds s s' := by
  unfold scan at hs
  split at hs
  next safely report c hp =>
    have hwork : report.status = .pending ∧ report.nextCategory = some c := by
      simpa [hp, Post.Sane, Pc.Sane] using h.sane w
    have hcopy : (s.post w).copy = some report := by rw [hp]; rfl
    have hread : (s.post w).reading = none := by rw [hp]; rfl
    split at hs
    · cases hs
      exact h.proceeds_recordItem _ hcopy hread hwork
    · cases hs
      exact h.proceeds_commitRow hcopy (advances_review hwork.1 _) nofun rfl trivial hread rfl
    · cases hs
      exact h.proceeds_commitRow hcopy (advances_review hwork.1 _) nofun rfl trivial hread rfl
  · cases hs

theorem proceeds_answer {response : Response} (h : Tended s)
    (hs : s.answer w response = some s') : Proceeds s s' := by
  unfold answer at hs
  split at hs
  next safely report c request hp =>
    have hwork : AtWork report c request.params := by simpa [hp, Post.Sane, Pc.Sane] using h.sane w
    split at hs
    · cases hs
      exact h.proceeds_goto (by rw [hp]; rfl) ⟨hwork.pending, hwork.next⟩ (by rw [hp]; rfl) rfl
    · cases hs
      exact h.proceeds_goto (by rw [hp]; rfl) hwork (by rw [hp]; rfl) rfl
  · cases hs

theorem proceeds_record (h : Tended s) (hs : s.record w = some s') : Proceeds s s' := by
  unfold record at hs
  split at hs
  next safely report c item hp =>
    cases hs
    refine h.proceeds_recordItem _ (by rw [hp]; rfl) (by rw [hp]; rfl) ?_
    simpa [hp, Post.Sane, Pc.Sane] using h.sane w
  · cases hs

theorem proceeds_resolve {draft : Bool} (h : Tended s) (hs : s.resolve w draft = some s') :
    Proceeds s s' := by
  unfold resolve at hs
  split at hs
  next safely report c params blames hp =>
    split at hs
    · cases hs
      refine h.proceeds_goto (by rw [hp]; rfl) ?_ (by rw [hp]; rfl) rfl
      simpa [hp, Post.Sane, Pc.Sane] using h.sane w
    · cases hs
  · cases hs

theorem proceeds_carry (h : Tended s) (hs : s.carry w = some s') : Proceeds s s' := by
  unfold carry at hs
  split at hs
  next safely report c params hp =>
    cases hs
    have hwork : AtWork report c params := by simpa [hp, Post.Sane, Pc.Sane] using h.sane w
    have hstatus : (report.carryOver c params).status ≠ .reported := by
      rw [show (report.carryOver c params).status = report.status from rfl, hwork.pending]
      nofun
    exact h.proceeds_commitRow (by rw [hp]; rfl) (advances_carryOver hwork) hstatus rfl trivial
      (by rw [hp]; rfl) rfl
  · cases hs

/-! ### `finish` and the error handler -/

theorem proceeds_lockUsage (h : Tended s) (hs : s.lockUsage w = some s') : Proceeds s s' := by
  unfold lockUsage at hs
  split at hs
  next safely report hp =>
    split at hs
    next usage hfree husage =>
      cases hs
      have hsane : (Post.finishing safely report usage
          (s.db.reportsFor report.usageRecordId)).Sane := by
        simpa [hp, Post.Sane] using h.sane w
      refine ⟨(h.goto (by rw [hp]; rfl) hsane).of_frame rfl rfl rfl, ?_⟩
      exact .read w report usage hfree husage rfl rfl (reading_update_ite _ rfl)
    · cases hs
  · cases hs

theorem proceeds_finish (h : Tended s) (hs : s.finish w = some s') : Proceeds s s' := by
  unfold finish at hs
  split at hs
  next safely report usage read hp =>
    cases hs
    have hsane : report.status = .pending ∧ report.nextCategory = none := by
      simpa [hp, Post.Sane] using h.sane w
    refine ⟨?_, .finished w report usage read (by rw [hp]; rfl) rfl rfl
      (reading_update_ite none rfl)⟩
    have hcommit := @Tended.commitRow s w report report.confirm .idle h (by rw [hp]; rfl)
      (advances_confirm hsane.1) (fun _ => hsane.2) rfl trivial
    exact hcommit.of_frame rfl rfl rfl
  · cases hs

theorem afterRaise_sane (safely : Bool) (id : UUID) :
    (afterRaise safely id).copy = none ∧ (afterRaise safely id).Sane ∧
      (afterRaise safely id).reading = none := by
  cases safely <;> exact ⟨rfl, trivial, rfl⟩

theorem proceeds_raise (h : Tended s) (hs : s.raise w = some s') : Proceeds s s' := by
  unfold raise at hs
  split at hs
  · cases hs
  next safely id hp =>
    cases hs
    obtain ⟨hc, hsane, hread⟩ := afterRaise_sane safely id
    exact h.proceeds_goto (by rw [hp]; exact hc) hsane (by rw [hp]; rfl) hread
  next safely p hp =>
    split at hs
    · cases hs
    next report hcopy =>
      cases hs
      obtain ⟨hc, hsane, hread⟩ := afterRaise_sane safely report.id
      exact h.proceeds_leave (by rw [hp]; exact hcopy) hc hsane (by rw [hp]; rfl) hread
  next safely report hp =>
    cases hs
    obtain ⟨hc, hsane, hread⟩ := afterRaise_sane safely report.id
    exact h.proceeds_leave (by rw [hp]; rfl) hc hsane (by rw [hp]; rfl) hread
  -- inside `finish` the usage row is given up as well
  next safely report usage read hp =>
    cases hs
    obtain ⟨hc, hsane, hread⟩ := afterRaise_sane safely report.id
    have hcopy : (s.post w).copy = some report := by rw [hp]; rfl
    refine ⟨(h.leave hcopy hc hsane).of_frame rfl rfl rfl, ?_⟩
    exact .abandoned w report usage read (by rw [hp]; rfl) rfl rfl (reading_update_ite none hread)
  next id hp =>
    cases hs
    exact h.proceeds_goto (by rw [hp]; rfl) trivial (by rw [hp]; rfl) rfl
  next report hp =>
    cases hs
    exact h.proceeds_leave (by rw [hp]; rfl) rfl trivial (by rw [hp]; rfl) rfl

theorem proceeds_relock (h : Tended s) (hs : s.relock w = some s') : Proceeds s s' := by
  unfold relock at hs
  split at hs
  next id hp =>
    have hread : (s.post w).reading = none := by rw [hp]; rfl
    split at hs
    next report hfree hfind =>
      split at hs
      next hpending =>
        cases hs
        exact ⟨h.acquire hfree hfind rfl hpending, .quiet rfl rfl (reading_update hread rfl)⟩
      · cases hs
        exact h.proceeds_goto (by rw [hp]; rfl) trivial hread rfl
    · cases hs
      exact h.proceeds_goto (by rw [hp]; rfl) trivial hread rfl
  · cases hs

theorem proceeds_note {message : String} (h : Tended s) (hs : s.note w message = some s') :
    Proceeds s s' := by
  unfold note at hs
  split at hs
  next report hp =>
    cases hs
    have hpending : report.status = .pending := by simpa [hp, Post.Sane] using h.sane w
    have hstatus : { report with lastError := some message : BillingReport }.status ≠ .reported := by
      rw [show { report with lastError := some message : BillingReport }.status = report.status
        from rfl, hpending]
      nofun
    exact h.proceeds_commitRow (by rw [hp]; rfl) (advances_note _) hstatus rfl trivial
      (by rw [hp]; rfl) rfl
  · cases hs

/-- **One step keeps the desk tended and does nothing but a `DeskStep`.** -/
theorem Tended.step {a : DeskAct} (h : Tended s) (hs : s.step a = some s') :
    Tended s' ∧ DeskStep a.asks s s' := by
  cases a with
  | stage t args => exact proceeds_stage h hs
  | upsertUsageCounters o start stop counts => exact proceeds_upsert h hs
  | markBilled start i => exact proceeds_markBilled h hs
  | deliver w safely id =>
    simp only [ReportDesk.step] at hs
    split at hs
    next hp =>
      cases hs
      exact h.proceeds_goto (by rw [hp]; rfl) trivial (by rw [hp]; rfl) rfl
    · cases hs
  | lock w => exact proceeds_lock h hs
  | begin w now =>
    simp only [ReportDesk.step] at hs
    split at hs
    next hp =>
      cases hs
      exact proceeds_start now h hp
    · cases hs
  | retrieve w draft => exact proceeds_retrieve h hs
  | commitIntent w sub => exact proceeds_commitIntent h hs
  | scan w listed => exact proceeds_scan h hs
  | answer w response => exact proceeds_answer h hs
  | record w => exact proceeds_record h hs
  | resolve w draft => exact proceeds_resolve h hs
  | carry w => exact proceeds_carry h hs
  | lockUsage w => exact proceeds_lockUsage h hs
  | finish w => exact proceeds_finish h hs
  | raise w => exact proceeds_raise h hs
  | relock w => exact proceeds_relock h hs
  | note w message => exact proceeds_note h hs

/-! ## Whole runs -/

/-- Every report stored before is stored, moved on, after. -/
def Kept (s s' : ReportDesk) : Prop := ∀ r ∈ s.db.reports, ∃ r' ∈ s'.db.reports, Advances r r'

theorem Kept.trans {s'' : ReportDesk} (h : Kept s s') (h' : Kept s' s'') : Kept s s'' := by
  intro r hr
  obtain ⟨r', hr', hadv⟩ := h r hr
  obtain ⟨r'', hr'', hadv'⟩ := h' r' hr'
  exact ⟨r'', hr'', hadv.trans hadv'⟩

theorem Kept.of_reports (h : s'.db.reports = s.db.reports) : Kept s s' :=
  fun r hr => ⟨r, h ▸ hr, Advances.refl r⟩

/-- Replacing one row by one it has moved on to. -/
theorem Tended.kept_putReport (h : Tended s) (hmem : r ∈ s.db.reports) (hadv : Advances r row)
    (hdb : s'.db.reports = (s.db.putReport row).reports) : Kept s s' := by
  intro q hq
  rw [hdb]
  by_cases he : q.id = row.id
  · obtain rfl : q = r := h.unique hmem hq (he.trans hadv.id)
    exact ⟨row, List.mem_map.mpr ⟨q, hq, if_pos he⟩, hadv⟩
  · exact ⟨q, List.mem_map.mpr ⟨q, hq, if_neg he⟩, Advances.refl q⟩

theorem DeskStep.kept {asked : Option (DateTime × StageArgs)} (h : Tended s)
    (hstep : DeskStep asked s s') : Kept s s' := by
  cases hstep with
  | quiet hdb => exact .of_reports (by rw [hdb])
  | staged t a usage customer _ _ hdb =>
    intro r hr
    rw [hdb]
    exact ⟨r, List.mem_append_left _ hr, Advances.refl r⟩
  | counted t _ hreports => exact .of_reports hreports
  | moved r row hmem hadv _ hdb => exact h.kept_putReport hmem hadv (by rw [hdb])
  | read w report usage _ _ hdb => exact .of_reports (by rw [hdb])
  | finished w report usage read hwas hdb =>
    have hcopy : (s.post w).copy = some report := by
      cases hp : s.post w <;> simp_all [Post.reading, Post.copy]
    have hpending : report.status = .pending := by
      have hsane := h.sane w
      cases hp : s.post w <;> simp_all [Post.reading, Post.Sane]
    exact h.kept_putReport (h.held w report hcopy).2 (advances_confirm hpending) (by rw [hdb]; rfl)
  | abandoned w report usage read _ hdb => exact .of_reports (by rw [hdb])

/-- Every run keeps every report. -/
theorem kept_of_reach (h : Tended s)
    (hreach : GuardedRun.Reach (fun s a => s.step a) GuardedRun.Always s s') :
    Tended s' ∧ Kept s s' := by
  refine hreach.invariant (I := fun t => Tended t ∧ Kept s t) ⟨h, .of_reports rfl⟩ ?_
  rintro t a t' ⟨ht, hkept⟩ - hs
  obtain ⟨ht', hstep⟩ := ht.step hs
  exact ⟨ht', hkept.trans (hstep.kept ht)⟩

/-- The rows are the same but for error notes. -/
def SameButErrors (s s' : ReportDesk) : Prop :=
  s'.db.usage = s.db.usage ∧
    List.Forall₂ (fun r r' => r' = { r with lastError := r'.lastError }) s.db.reports s'.db.reports

theorem SameButErrors.of_db (h : s'.db = s.db) : SameButErrors s s' :=
  ⟨by rw [h], by rw [h]; exact List.forall₂_same.mpr fun _ _ => rfl⟩

theorem SameButErrors.trans {s'' : ReportDesk} (h : SameButErrors s s')
    (h' : SameButErrors s' s'') : SameButErrors s s'' := by
  refine ⟨h'.1.trans h.1, ?_⟩
  have hcomp : ∀ {l₁ l₂ l₃ : List BillingReport},
      List.Forall₂ (fun r r' => r' = { r with lastError := r'.lastError }) l₁ l₂ →
      List.Forall₂ (fun r r' => r' = { r with lastError := r'.lastError }) l₂ l₃ →
      List.Forall₂ (fun r r' => r' = { r with lastError := r'.lastError }) l₁ l₃ := by
    intro l₁ l₂ l₃ h₁
    induction h₁ generalizing l₃ with
    | nil => exact fun h₂ => h₂
    | cons hab _ ih =>
      intro h₂
      cases h₂ with
      | cons hbc hrest =>
        refine .cons ?_ (ih hrest)
        rw [hbc, hab]
  exact hcomp h.2 h'.2

/-- An act of a failed `deliver_safely` writes nothing but an error note. -/
theorem sameButErrors_of_failing {a : DeskAct} (h : Tended s) (ha : a.Failing)
    (hs : s.step a = some s') : SameButErrors s s' := by
  cases a with
  | raise w =>
    simp only [ReportDesk.step, raise] at hs
    split at hs
    · cases hs
    · cases hs
      exact .of_db rfl
    · split at hs
      · cases hs
      · cases hs
        exact .of_db rfl
    all_goals cases hs; exact .of_db rfl
  | relock w =>
    simp only [ReportDesk.step, relock] at hs
    split at hs
    · split at hs
      · split at hs
        · cases hs
          exact .of_db rfl
        · cases hs
          exact .of_db rfl
      · cases hs
        exact .of_db rfl
    · cases hs
  | note w message =>
    simp only [ReportDesk.step, note] at hs
    split at hs
    next report hp =>
      cases hs
      have hcopy : (s.post w).copy = some report := by rw [hp]; rfl
      refine ⟨rfl, List.forall₂_map_right_iff.mpr (List.forall₂_same.mpr fun q hq => ?_)⟩
      split
      next he =>
        -- the row that is noted on is the copy the worker holds under its lock
        obtain rfl : q = report := h.unique (h.held w report hcopy).2 hq he
        rfl
      · rfl
    · cases hs
  -- no other act is part of a failure
  | _ => cases ha

/-- **The history of a report is append-only and failure-atomic.**  From any state of any
run, whatever follows: snapshots, pricing, customer and usage record of every report stay
as they are, recorded items stay as they are, and a status that changes was pending and is
reported or in need of review.  A reported report has an item for every requested category.
And the steps of a `deliver_safely` that fails leave every row as the last committed round
left it, but for the error note. -/
theorem report_history {s₀ : ReportDesk} (h₀ : s₀.Opened)
    (hreach : GuardedRun.Reach (fun s a => s.step a) GuardedRun.Always s₀ s) :
    (∀ s', GuardedRun.Reach (fun s a => s.step a) GuardedRun.Always s s' →
      ∀ r ∈ s.db.reports, ∃ r' ∈ s'.db.reports, r'.id = r.id ∧
        (r'.snapshot = r.snapshot ∧ r'.pricing = r.pricing ∧
          r'.stripeCustomerId = r.stripeCustomerId ∧ r'.usageRecordId = r.usageRecordId) ∧
        (∀ c i, r.stripeItemIds c = some i → r'.stripeItemIds c = some i) ∧
        (r'.status = r.status ∨
          r.status = .pending ∧ (r'.status = .reported ∨ r'.status = .needsReview))) ∧
    (∀ r ∈ s.db.reports, r.status = .reported →
      ∀ c, (r.requests c).isSome = true → (r.stripeItemIds c).isSome = true) ∧
    (∀ s', GuardedRun.Reach (fun s a => s.step a) (fun _ a => a.Failing) s s' →
      SameButErrors s s') := by
  -- every state of the run is tended, so the three parts start from `s` itself
  have ht : Tended s := (kept_of_reach (tended_of_opened h₀) hreach).1
  refine ⟨fun s' hrun r hr => ?_, fun r hr hs => ?_, fun s' hrun => ?_⟩
  · obtain ⟨r', hr', hadv⟩ := (kept_of_reach ht hrun).2 r hr
    have hres := hadv.reservation
    refine ⟨r', hr', hadv.id, ⟨?_, ?_, hadv.customer, hadv.record⟩, hadv.items, ?_⟩
    · exact congrArg Reservation.snapshot hres
    · exact congrArg Reservation.pricing hres
    · rcases hadv.status with hs | ⟨hp, hs⟩
      · exact Or.inl hs
      · refine Or.inr ⟨hp, ?_⟩
        cases hstat : r'.status with
        | pending => exact absurd hstat hs
        | reported => exact Or.inl rfl
        | needsReview => exact Or.inr rfl
  · exact nextCategory_eq_none.mp (ht.settled r hr hs)
  · have hinv : Tended s' ∧ SameButErrors s s' := by
      refine hrun.invariant (I := fun t => Tended t ∧ SameButErrors s t) ⟨ht, .of_db rfl⟩ ?_
      rintro t a t' ⟨htt, hsame⟩ ha hs
      exact ⟨(htt.step hs).1, hsame.trans (sameButErrors_of_failing htt ha hs)⟩
    exact hinv.2

/-- The record of a Pro period with six thousand traces. -/
def heavyUsage : UsageRecord :=
  ⟨"org", 0, DateTime.days 30, fun c => if c = .traces then 6000 else 0, fun _ => 0, false, none⟩

/-- Nothing is staged for that record yet. -/
def heavyDesk : ReportDesk where
  db := BillingDb.empty.putUsage heavyUsage
  rowLock := fun _ => none
  usageLock := fun _ => none
  post := fun _ => .idle

theorem heavyDesk_opened : heavyDesk.Opened :=
  ⟨rfl, fun _ => rfl, fun _ => rfl, fun _ => rfl⟩

theorem heavyDesk_usage : heavyDesk.db.usage 0 = some heavyUsage := rfl

/-- The subscription the record is incurred under. -/
def heavySub : Subscription :=
  ⟨"org", .pro, .active, some "cus", some "sub", 0, DateTime.days 30, none⟩

/-- A report is staged, and a worker records its intent to send it. -/
def toIntent : List DeskAct :=
  [.stage 0 ⟨heavySub, none, none, false, "rep", 0⟩, .deliver 1 true "rep", .lock 1, .begin 1 0,
    .retrieve 1 true, .commitIntent 1 (some heavySub)]

/-- A worker that times out between two rounds: the committed intent stays. -/
theorem report_history_timeout :
    ∃ s s', GuardedRun.run (fun s a => s.step a) heavyDesk toIntent = some s ∧
      GuardedRun.run (fun s a => s.step a) s [.raise 1, .relock 1, .note 1 "timeout"] = some s' ∧
      SameButErrors s s' := by
  have hsome : ((GuardedRun.run (fun s a => s.step a) heavyDesk toIntent).bind fun s =>
      GuardedRun.run (fun s a => s.step a) s [.raise 1, .relock 1, .note 1 "timeout"]).isSome =
        true := by decide +kernel
  obtain ⟨s', hs'⟩ := Option.isSome_iff_exists.mp hsome
  obtain ⟨s, hs, hfail⟩ := Option.bind_eq_some_iff.mp hs'
  have hfailing : GuardedRun.Reach (fun s a => s.step a) (fun _ a => a.Failing) s s' := by
    refine GuardedRun.Reach.run_from .initial (fun a ha _ => ?_) hfail
    simp only [List.mem_cons, List.not_mem_nil, or_false] at ha
    rcases ha with rfl | rfl | rfl <;> trivial
  refine ⟨s, s', hs, hfail, ?_⟩
  exact (report_history heavyDesk_opened (GuardedRun.reach_of_run hs)).2.2 s' hfailing

end ReportDesk
end PandaProbe
