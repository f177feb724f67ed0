import PandaProbe.ReportHistory

/-! # The reported watermark

`finish` moves a record's watermark up to the confirmed snapshots, but not past a charge
without a Stripe item.  It reads the record's reports under the usage row's lock, and other
reports may be delivered between that read and its commit, so what it read lags behind what
is stored: by deliveries only, since staging and other finishes wait for the same lock
(`Lags`).  A lagging read shows more unresolved charges than there are, never fewer.

`Sound` is the invariant of one record: its reservations are stacked as `Reserved` has it,
and no unresolved charge starts below the watermark.
-/
namespace PandaProbe
open HighWater BillingReport

namespace ReportDesk
variable {s s' : ReportDesk} {w : Nat} {r row report : BillingReport} {t : DateTime}
variable {usage : UsageRecord} {read : List BillingReport} {r0 : UsageCategory → Int}

/-- A report as it was read, and as it is stored: deliveries may have moved it on, but not
confirmed it. -/
structure Lags (r r' : BillingReport) : Prop where
  adv : Advances r r'
  status : r'.status = .reported → r.status = .reported

theorem Lags.refl (r : BillingReport) : Lags r r := ⟨.refl r, fun h => h⟩

theorem Lags.trans {r' r'' : BillingReport} (h : Lags r r') (h' : Lags r' r'') : Lags r r'' :=
  ⟨h.adv.trans h'.adv, fun hs => h.status (h'.status hs)⟩

theorem mem_reportsFor {db : BillingDb} :
    r ∈ db.reportsFor t ↔ r ∈ db.reports ∧ r.usageRecordId = t := by
  simp [BillingDb.reportsFor]

/-- What a worker in `finish` has read: the usage row as it is, and the record's reports,
its own among them, as they were. -/
structure Reads (s : ReportDesk) (w : Nat) (report : BillingReport) (usage : UsageRecord)
    (read : List BillingReport) : Prop where
  lock : s.usageLock report.usageRecordId = some w
  usage : s.db.usage report.usageRecordId = some usage
  own : report ∈ read
  nodup : (read.map BillingReport.id).Nodup
  settled : ∀ q ∈ read, q.status = .reported → q.nextCategory = none
  stored : ∀ q ∈ read, ∃ q' ∈ s.db.reportsFor report.usageRecordId, Lags q q'
  seen : ∀ q' ∈ s.db.reportsFor report.usageRecordId, ∃ q ∈ read, Lags q q'

/-- The charges of a category that have no Stripe item start at or above `m`. -/
def Unpassed (m : UsageCategory → Int) (reports : List BillingReport) : Prop :=
  ∀ r ∈ reports, ∀ c q, r.requests c = some q → r.stripeItemIds c = none →
    m c ≤ q.metadata.fromCount

/-- **What one record keeps**, for the watermark `r0` it started from. -/
structure Sound (t : DateTime) (r0 : UsageCategory → Int) (u : UsageRecord) (s : ReportDesk) :
    Prop where
  tended : Tended s
  reads : ∀ w report usage read, (s.post w).reading = some (report, usage, read) →
    Reads s w report usage read
  usage : s.db.usage t = some u
  reserved : Reserved r0 u.reported ((s.db.reportsFor t).map BillingReport.reservation)
  unpassed : Unpassed u.reported (s.db.reportsFor t)

theorem sound_of_opened {u : UsageRecord} (h : s.Opened) (hu : s.db.usage t = some u) :
    Sound t u.reported u s where
  tended := tended_of_opened h
  reads := by
    intro w report usage read hr
    rw [h.idle w] at hr
    cases hr
  usage := hu
  reserved := by
    rw [BillingDb.reportsFor, h.unstaged]
    exact Reserved.initial u.reported
  unpassed := by
    intro r hr
    rw [mem_reportsFor, h.unstaged] at hr
    exact absurd hr.1 List.not_mem_nil

/-! ## Rows that move on -/

/-- The record's reports after one row was replaced by one it moved on to. -/
theorem Tended.reportsFor_putReport (h : Tended s) (hmem : r ∈ s.db.reports)
    (hadv : Advances r row) (t : DateTime) :
    (s.db.putReport row).reportsFor t =
      (s.db.reportsFor t).map (fun q => if q.id = row.id then row else q) := by
  unfold BillingDb.reportsFor
  rw [BillingDb.putReport_reports, List.filter_map]
  refine congrArg _ (List.filter_congr fun q hq => ?_)
  simp only [Function.comp_apply]
  split
  next he =>
    obtain rfl : q = r := h.unique hmem hq (he.trans hadv.id)
    rw [hadv.record]
  · rfl

/-- The reports of the other records stay. -/
theorem Tended.reportsFor_putReport_of_ne (h : Tended s) (hmem : r ∈ s.db.reports)
    (hadv : Advances r row) (hne : r.usageRecordId ≠ t) :
    (s.db.putReport row).reportsFor t = s.db.reportsFor t := by
  rw [h.reportsFor_putReport hmem hadv]
  refine (List.map_congr_left fun q hq => ?_).trans (List.map_id _)
  obtain ⟨hq, hqt⟩ := mem_reportsFor.mp hq
  refine if_neg fun he => hne ?_
  rw [← hqt, h.unique hmem hq (he.trans hadv.id)]

/-- Each of them has moved on. -/
theorem Tended.advances_replace (h : Tended s) (hmem : r ∈ s.db.reports) (hadv : Advances r row)
    {q : BillingReport} (hq : q ∈ s.db.reports) :
    Advances q (if q.id = row.id then row else q) := by
  split
  next he =>
    obtain rfl : q = r := h.unique hmem hq (he.trans hadv.id)
    exact hadv
  · exact .refl q

theorem Tended.reservations_putReport (h : Tended s) (hmem : r ∈ s.db.reports)
    (hadv : Advances r row) (t : DateTime) :
    ((s.db.putReport row).reportsFor t).map BillingReport.reservation =
      (s.db.reportsFor t).map BillingReport.reservation := by
  rw [h.reportsFor_putReport hmem hadv, List.map_map]
  refine List.map_congr_left fun q hq => ?_
  exact (h.advances_replace hmem hadv (mem_reportsFor.mp hq).1).reservation

theorem Tended.unpassed_putReport {m : UsageCategory → Int} (h : Tended s)
    (hmem : r ∈ s.db.reports) (hadv : Advances r row) (hun : Unpassed m (s.db.reportsFor t)) :
    Unpassed m ((s.db.putReport row).reportsFor t) := by
  intro q' hq' c req hreq hitem
  rw [h.reportsFor_putReport hmem hadv] at hq'
  obtain ⟨q, hq, rfl⟩ := List.mem_map.mp hq'
  have hqadv := h.advances_replace hmem hadv (mem_reportsFor.mp hq).1
  obtain ⟨q₀, hq₀, hfrom, hitem₀⟩ := hqadv.unresolved hreq hitem
  rw [← hfrom]
  exact hun q hq c q₀ hq₀ hitem₀

/-- A read keeps lagging behind a delivery. -/
theorem Reads.putReport (hread : Reads s w report usage read) (h : Tended s)
    (hmem : r ∈ s.db.reports) (hadv : Advances r row)
    (hstatus : row.status = .reported → r.status = .reported)
    (hdb : s'.db = s.db.putReport row) (hlock : s'.usageLock = s.usageLock) :
    Reads s' w report usage read := by
  -- a delivery moves only its own report, which the read may have seen before the move
  have hlag : ∀ q ∈ s.db.reports, Lags q (if q.id = row.id then row else q) := by
    intro q hq
    refine ⟨h.advances_replace hmem hadv hq, ?_⟩
    split
    next he =>
      obtain rfl : q = r := h.unique hmem hq (he.trans hadv.id)
      exact hstatus
    · exact fun hs => hs
  have hreports := h.reportsFor_putReport hmem hadv report.usageRecordId
  refine ⟨by rw [hlock]; exact hread.lock, by rw [hdb]; exact hread.usage, hread.own,
    hread.nodup, hread.settled, fun q hq => ?_, fun q' hq' => ?_⟩
  · obtain ⟨q', hq', hl⟩ := hread.stored q hq
    refine ⟨_, ?_, hl.trans (hlag q' (mem_reportsFor.mp hq').1)⟩
    rw [hdb, hreports]
    exact List.mem_map_of_mem hq'
  · rw [hdb, hreports] at hq'
    obtain ⟨q, hq, rfl⟩ := List.mem_map.mp hq'
    obtain ⟨q₀, hq₀, hl⟩ := hread.seen q hq
    exact ⟨q₀, hq₀, hl.trans (hlag q (mem_reportsFor.mp hq).1)⟩

/-- A read depends on its usage row, its lock and the reports of its record. -/
theorem Reads.of_frame (h : Reads s w report usage read)
    (hlock : s'.usageLock report.usageRecordId = s.usageLock report.usageRecordId)
    (husage : s'.db.usage report.usageRecordId = s.db.usage report.usageRecordId)
    (hreports : s'.db.reportsFor report.usageRecordId = s.db.reportsFor report.usageRecordId) :
    Reads s' w report usage read :=
  ⟨hlock.trans h.lock, husage.trans h.usage, h.own, h.nodup, h.settled,
    by rw [hreports]; exact h.stored, by rw [hreports]; exact h.seen⟩

/-! ## What `finish` computes -/

theorem foldl_min_le_of_mem {m x : Int} {l : List Int} (hx : x ∈ l) : l.foldl min m ≤ x := by
  induction l generalizing m with
  | nil => cases hx
  | cons y l ih =>
    rcases List.mem_cons.mp hx with rfl | hx
    · exact le_trans (foldl_min_le _ l) (min_le_right m x)
    · exact ih hx

/-- **`finish` passes no unresolved charge**, also of a report delivered since its read. -/
theorem Reads.unpassed_finish (h : Reads s w report usage read)
    (hun : Unpassed usage.reported (s.db.reportsFor report.usageRecordId)) :
    Unpassed (finishUsage usage read report.id).reported
      (s.db.reportsFor report.usageRecordId) := by
  intro q' hq' c req hreq hitem
  obtain ⟨q, hq, hl⟩ := h.seen q' hq'
  obtain ⟨q₀, hq₀, hfrom, hitem₀⟩ := hl.adv.unresolved hreq hitem
  refine max_le (hun q' hq' c req hreq hitem) (foldl_min_le_of_mem ?_)
  refine List.mem_filterMap.mpr ⟨q, hq, ?_⟩
  simp only [hq₀, hitem₀]
  exact congrArg some hfrom

/-- The watermark stays below the mark of the reservations. -/
theorem Reads.finish_le (h : Reads s w report usage read) {l : List Reservation}
    (hl : l = (s.db.reportsFor report.usageRecordId).map BillingReport.reservation)
    (hle : ∀ c, usage.reported c ≤ topMark r0 c l) (c : UsageCategory) :
    (finishUsage usage read report.id).reported c ≤ topMark r0 c l := by
  refine le_trans (finishUsage_reported_le usage read report.id c) (mark_le (hle c) ?_)
  intro x hx
  obtain ⟨q, hq, rfl⟩ := List.mem_map.mp hx
  obtain ⟨q', hq', hlag⟩ := h.stored q hq
  have hsnap : q'.snapshot = q.snapshot := congrArg Reservation.snapshot hlag.adv.reservation
  rw [← hsnap, hl]
  exact le_mark_of_mem (List.mem_map.mpr ⟨q'.reservation, List.mem_map_of_mem hq', rfl⟩)

/-- **Once everything else is reported, `finish` reaches the mark.** -/
theorem Reads.finish_eq (h : Reads s w report usage read)
    (hdone : report.nextCategory = none)
    (hothers : ∀ q ∈ s.db.reportsFor report.usageRecordId, q.id ≠ report.id →
      q.status = .reported)
    (hstart : ∀ c, r0 c ≤ usage.reported c)
    (hle : ∀ c, usage.reported c ≤ topMark r0 c
      ((s.db.reportsFor report.usageRecordId).map BillingReport.reservation))
    (c : UsageCategory) :
    (finishUsage usage read report.id).reported c =
      mark (r0 c) ((s.db.reportsFor report.usageRecordId).map (fun q => q.snapshot c)) := by
  have htop : topMark r0 c ((s.db.reportsFor report.usageRecordId).map BillingReport.reservation) =
      mark (r0 c) ((s.db.reportsFor report.usageRecordId).map (fun q => q.snapshot c)) := by
    simp [topMark, BillingReport.reservation, Function.comp_def]
  -- no report of the locked record has become reported since, so the others were read as such
  have hreported : ∀ q ∈ read, q.id ≠ report.id → q.status = .reported := by
    intro q hq hne
    obtain ⟨q', hq', hl⟩ := h.stored q hq
    exact hl.status (hothers q' hq' (by rw [hl.adv.id]; exact hne))
  -- hence no charge is unresolved, and the minimum over them caps nothing
  have hnone : unresolvedCounts read c = [] := by
    refine List.filterMap_eq_nil_iff.mpr fun q hq => ?_
    have hnext : q.nextCategory = none := by
      by_cases he : q.id = report.id
      · rw [List.inj_on_of_nodup_map h.nodup hq h.own he]
        exact hdone
      · exact h.settled q hq (hreported q hq he)
    have hall := nextCategory_eq_none.mp hnext c
    cases hr : q.requests c with
    | none => rfl
    | some req =>
      rw [hr] at hall
      obtain ⟨i, hi⟩ := Option.isSome_iff_exists.mp (hall rfl)
      simp only [hi]
  -- and every snapshot counts as confirmed
  have hall : ∀ q ∈ read, q.snapshot c ∈ confirmedCounts read report.id c := by
    intro q hq
    refine List.mem_map.mpr ⟨q, List.mem_filter.mpr ⟨hq, ?_⟩, rfl⟩
    by_cases he : q.id = report.id
    · simp [he]
    · simp [hreported q hq he]
  refine le_antisymm ?_ (mark_le ?_ fun x hx => ?_)
  · rw [← htop]
    exact h.finish_le rfl hle c
  · exact le_trans (hstart c) (le_finishUsage_reported usage read report.id c)
  · obtain ⟨q', hq', rfl⟩ := List.mem_map.mp hx
    obtain ⟨q, hq, hl⟩ := h.seen q' hq'
    have hsnap : q'.snapshot = q.snapshot := congrArg Reservation.snapshot hl.adv.reservation
    refine le_trans ?_ (le_max_right _ _)
    rw [hnone, hsnap]
    exact le_mark_of_mem (hall q hq)

/-! ## One step -/

/-- The usage row a read writes is the record's. -/
theorem Reads.key (h : Reads s w report usage read) :
    (finishUsage usage read report.id).periodStart = report.usageRecordId := by
  show usage.periodStart = report.usageRecordId
  exact s.db.usage_keyed _ _ h.usage

/-- What a step does to the watermark of a record. -/
def Lifts (t : DateTime) (r0 : UsageCategory → Int) (u : UsageRecord) (s' : ReportDesk) : Prop :=
  ∃ u', Sound t r0 u' s' ∧ ∀ c, u.reported c ≤ u'.reported c

variable {u : UsageRecord}

/-- A step that leaves the record's row, its reports and every read alone. -/
theorem Sound.lifts_of_frame (h : Sound t r0 u s) (ht : Tended s')
    (hreads : ∀ w report usage read, (s'.post w).reading = some (report, usage, read) →
      Reads s' w report usage read)
    (husage : s'.db.usage t = some u) (hreports : s'.db.reportsFor t = s.db.reportsFor t) :
    Lifts t r0 u s' := by
  refine ⟨u, ⟨ht, hreads, husage, ?_, ?_⟩, fun c => le_refl _⟩
  · rw [hreports]; exact h.reserved
  · rw [hreports]; exact h.unpassed

theorem reportsFor_addReport {db : BillingDb} {x : BillingReport} :
    (db.addReport x).reportsFor t =
      db.reportsFor t ++ (if x.usageRecordId = t then [x] else []) := by
  unfold BillingDb.reportsFor
  rw [BillingDb.addReport_reports, List.filter_append]
  refine congrArg _ ?_
  by_cases hx : x.usageRecordId = t <;> simp [hx]

/-- Nobody reads a record whose usage row is free. -/
theorem Sound.not_reading (h : Sound t r0 u s) {x : DateTime} (hfree : s.usageLock x = none)
    {v : Nat} (hr : (s.post v).reading = some (report, usage, read)) :
    report.usageRecordId ≠ x := by
  rintro rfl
  have hlock := (h.reads v report usage read hr).lock
  rw [hfree] at hlock
  cases hlock

/-- **A staged report starts at the mark.** -/
theorem Sound.staged (h : Sound t r0 u s) {a : StageArgs} {customer : String} {x : DateTime}
    (ht : Tended s') (hfree : s.usageLock x = none) (husage : s.db.usage x = some usage)
    (hdb : s'.db = s.db.addReport (stageReport usage (byCreation (s.db.reportsFor x)) a customer))
    (hlock : s'.usageLock = s.usageLock)
    (hreading : ∀ v, (s'.post v).reading = (s.post v).reading) : Lifts t r0 u s' := by
  have hkey : usage.periodStart = x := s.db.usage_keyed x usage husage
  have hfor : ∀ y, y ≠ x → s'.db.reportsFor y = s.db.reportsFor y := by
    intro y hy
    rw [hdb, reportsFor_addReport, if_neg, List.append_nil]
    exact fun he => hy (he.symm.trans hkey)
  have hreads : ∀ v report usage read, (s'.post v).reading = some (report, usage, read) →
      Reads s' v report usage read := by
    intro v report usage' read hr
    rw [hreading] at hr
    have hne := h.not_reading hfree hr
    exact (h.reads v report usage' read hr).of_frame (by rw [hlock]) (by rw [hdb]; rfl) (hfor _ hne)
  have husage' : s'.db.usage t = some u := by rw [hdb]; exact h.usage
  by_cases hx : t = x
  · subst hx
    obtain rfl : usage = u := Option.some.inj (husage.symm.trans h.usage)
    have hfor' : s'.db.reportsFor t = s.db.reportsFor t ++
        [stageReport usage (byCreation (s.db.reportsFor t)) a customer] := by
      rw [hdb, reportsFor_addReport, if_pos]
      exact hkey
    refine ⟨usage, ⟨ht, hreads, husage', ?_, ?_⟩, fun c => le_refl _⟩
    · rw [hfor', List.map_append]
      -- the record and its reports are a ledger, on which staging is understood
      exact h.reserved.concat
        (@UsageLedger.extends_of_stage r0 ⟨usage, s.db.reportsFor t⟩ h.reserved a customer)
    · intro q hq c req hreq hitem
      rw [hfor'] at hq
      rcases List.mem_append.mp hq with hq | hq
      · exact h.unpassed q hq c req hreq hitem
      · obtain rfl := List.mem_singleton.mp hq
        have hreq : stageRequest usage (byCreation (s.db.reportsFor t)) a customer c =
          some req := hreq
        unfold stageRequest at hreq
        simp only at hreq
        split at hreq
        · cases hreq
        · cases hreq
          exact le_mark _ _
  · exact h.lifts_of_frame ht hreads husage' (hfor t hx)

/-- A counter write leaves every watermark alone. -/
theorem Sound.counted (h : Sound t r0 u s) {x : DateTime} (ht : Tended s')
    (hfree : s.usageLock x = none) (hreports : s'.db.reports = s.db.reports)
    (husage : ∀ y v, s.db.usage y = some v → ∃ v', s'.db.usage y = some v' ∧
      v'.reported = v.reported ∧ (y ≠ x → v' = v))
    (hlock : s'.usageLock = s.usageLock)
    (hreading : ∀ v, (s'.post v).reading = (s.post v).reading) : Lifts t r0 u s' := by
  have hfor : ∀ y, s'.db.reportsFor y = s.db.reportsFor y := by
    intro y
    simp only [BillingDb.reportsFor, hreports]
  obtain ⟨u', hu', hrep, -⟩ := husage t u h.usage
  refine ⟨u', ⟨ht, ?_, hu', ?_, ?_⟩, fun c => by rw [hrep]⟩
  · intro v report usage read hr
    rw [hreading] at hr
    have hread := h.reads v report usage read hr
    obtain ⟨v', hv', -, hsame⟩ := husage _ _ hread.usage
    refine hread.of_frame (by rw [hlock]) ?_ (hfor _)
    rw [hv', hsame (h.not_reading hfree hr), hread.usage]
  · rw [hrep, hfor]; exact h.reserved
  · rw [hrep, hfor]; exact h.unpassed

/-- A delivery leaves every watermark alone. -/
theorem Sound.moved (h : Sound t r0 u s) (ht : Tended s') (hmem : r ∈ s.db.reports)
    (hadv : Advances r row) (hstatus : row.status = .reported → r.status = .reported)
    (hdb : s'.db = s.db.putReport row) (hlock : s'.usageLock = s.usageLock)
    (hreading : ∀ v, (s'.post v).reading = (s.post v).reading) : Lifts t r0 u s' := by
  refine ⟨u, ⟨ht, ?_, by rw [hdb]; exact h.usage, ?_, ?_⟩, fun c => le_refl _⟩
  · intro v report usage read hr
    rw [hreading] at hr
    exact (h.reads v report usage read hr).putReport h.tended hmem hadv hstatus hdb hlock
  · rw [hdb, h.tended.reservations_putReport hmem hadv]
    exact h.reserved
  · rw [hdb]
    exact h.tended.unpassed_putReport hmem hadv h.unpassed

/-- The worker in `finish` holds its report. -/
theorem copy_of_reading {v : Nat} (hr : (s.post v).reading = some (report, usage, read)) :
    (s.post v).copy = some report := by
  cases hp : s.post v <;> rw [hp] at hr <;> cases hr
  rfl

/-- Its report is pending and has no category left. -/
theorem Tended.pending_of_reading (h : Tended s) {v : Nat}
    (hr : (s.post v).reading = some (report, usage, read)) :
    report.status = .pending ∧ report.nextCategory = none := by
  have hsane := h.sane v
  cases hp : s.post v <;> rw [hp] at hr hsane <;> cases hr
  exact hsane

/-- A fresh read of the record's reports. -/
theorem Sound.fresh_read (h : Sound t r0 u s) (ht : Tended s')
    (hfree : s.usageLock report.usageRecordId = none)
    (husage : s.db.usage report.usageRecordId = some usage) (hdb : s'.db = s.db)
    (hlock : s'.usageLock = Function.update s.usageLock report.usageRecordId (some w))
    (hreading : ∀ v, (s'.post v).reading = if v = w then
      some (report, usage, s.db.reportsFor report.usageRecordId) else (s.post v).reading) :
    Lifts t r0 u s' := by
  refine h.lifts_of_frame ht ?_ (by rw [hdb]; exact h.usage) (by rw [hdb])
  intro v q usage' read' hr
  have hr' := hr
  rw [hreading] at hr
  by_cases hv : v = w
  · rw [if_pos hv] at hr
    cases hr
    subst hv
    have hmem := (ht.held v report (copy_of_reading hr')).2
    rw [hdb] at hmem
    refine ⟨by rw [hlock]; exact Function.update_self .., by rw [hdb]; exact husage, ?_, ?_, ?_,
      ?_, ?_⟩
    · exact mem_reportsFor.mpr ⟨hmem, rfl⟩
    · exact h.tended.nodup.sublist ((List.filter_sublist ..).map _)
    · exact fun q hq => h.tended.settled q (mem_reportsFor.mp hq).1
    · exact fun q hq => ⟨q, by rw [hdb]; exact hq, .refl q⟩
    · exact fun q hq => ⟨q, by rw [hdb] at hq; exact hq, .refl q⟩
  · rw [if_neg hv] at hr
    -- the other reads hold other usage rows, since this one was free
    have hne := h.not_reading hfree hr
    refine (h.reads v q usage' read' hr).of_frame ?_ (by rw [hdb]) (by rw [hdb])
    rw [hlock, Function.update_of_ne hne]

/-- A read that ends frees its own usage row and no other one. -/
theorem Sound.reads_release (h : Sound t r0 u s)
    (hwas : (s.post w).reading = some (report, usage, read)) {v : Nat} {q : BillingReport}
    {usage' : UsageRecord} {read' : List BillingReport}
    (hr : (if v = w then none else (s.post v).reading) = some (q, usage', read')) :
    Reads s v q usage' read' ∧ q.usageRecordId ≠ report.usageRecordId := by
  by_cases hv : v = w
  · rw [if_pos hv] at hr
    cases hr
  · rw [if_neg hv] at hr
    have hq := h.reads v q usage' read' hr
    refine ⟨hq, fun he => hv ?_⟩
    have hlock := (h.reads w report usage read hwas).lock
    rw [← he, hq.lock] at hlock
    exact Option.some.inj hlock

theorem Sound.abandoned (h : Sound t r0 u s) (ht : Tended s')
    (hwas : (s.post w).reading = some (report, usage, read)) (hdb : s'.db = s.db)
    (hlock : s'.usageLock = Function.update s.usageLock report.usageRecordId none)
    (hreading : ∀ v, (s'.post v).reading = if v = w then none else (s.post v).reading) :
    Lifts t r0 u s' := by
  refine h.lifts_of_frame ht ?_ (by rw [hdb]; exact h.usage) (by rw [hdb])
  intro v q usage' read' hr
  rw [hreading] at hr
  obtain ⟨hq, hne⟩ := h.reads_release hwas hr
  refine hq.of_frame ?_ (by rw [hdb]) (by rw [hdb])
  rw [hlock, Function.update_of_ne hne]

/-- The rows after a finish. -/
theorem Sound.finished_rows (h : Sound t r0 u s)
    (hwas : (s.post w).reading = some (report, usage, read))
    (hdb : s'.db = (s.db.putUsage (finishUsage usage read report.id)).putReport report.confirm) :
    (∀ y, s'.db.usage y = if y = report.usageRecordId then
      some (finishUsage usage read report.id) else s.db.usage y) ∧
    (∀ y, s'.db.reportsFor y = (s.db.putReport report.confirm).reportsFor y) := by
  have hkey := (h.reads w report usage read hwas).key
  refine ⟨fun y => ?_, fun y => by rw [hdb]; rfl⟩
  rw [hdb, BillingDb.putReport_usage, BillingDb.putUsage_usage, hkey]
  exact Function.update_apply ..

/-- **`finish` lifts the watermark of its record** and of no other one. -/
theorem Sound.finished (h : Sound t r0 u s) (ht : Tended s')
    (hwas : (s.post w).reading = some (report, usage, read))
    (hdb : s'.db = (s.db.putUsage (finishUsage usage read report.id)).putReport report.confirm)
    (hlock : s'.usageLock = Function.update s.usageLock report.usageRecordId none)
    (hreading : ∀ v, (s'.post v).reading = if v = w then none else (s.post v).reading) :
    Lifts t r0 u s' := by
  have hread := h.reads w report usage read hwas
  obtain ⟨husage, hreports⟩ := h.finished_rows hwas hdb
  have hcopy := copy_of_reading hwas
  have hmem := (h.tended.held w report hcopy).2
  have hadv := advances_confirm (h.tended.pending_of_reading hwas).1
  -- the reads of other records see neither of the two rows written
  have hreads : ∀ v q usage' read', (s'.post v).reading = some (q, usage', read') →
      Reads s' v q usage' read' := by
    intro v q usage' read' hr
    rw [hreading] at hr
    obtain ⟨hq, hne⟩ := h.reads_release hwas hr
    refine hq.of_frame ?_ ?_ ?_
    · rw [hlock, Function.update_of_ne hne]
    · rw [husage, if_neg hne]
    · rw [hreports, h.tended.reportsFor_putReport_of_ne hmem hadv (Ne.symm hne)]
  -- the watermark moves only if the finished report is of this record
  by_cases hx : t = report.usageRecordId
  · subst hx
    obtain rfl : usage = u := Option.some.inj (hread.usage.symm.trans h.usage)
    refine ⟨finishUsage usage read report.id, ⟨ht, hreads, by rw [husage, if_pos rfl], ?_, ?_⟩,
      le_finishUsage_reported usage read report.id⟩
    · rw [hreports, h.tended.reservations_putReport hmem hadv]
      exact h.reserved.advance (le_finishUsage_reported usage read report.id)
        (hread.finish_le rfl h.reserved.reported_le)
    · rw [hreports]
      exact h.tended.unpassed_putReport hmem hadv (hread.unpassed_finish h.unpassed)
  · refine ⟨u, ⟨ht, hreads, by rw [husage, if_neg hx]; exact h.usage, ?_, ?_⟩, fun c => le_refl _⟩
    · rw [hreports, h.tended.reservations_putReport hmem hadv]
      exact h.reserved
    · rw [hreports]
      exact h.tended.unpassed_putReport hmem hadv h.unpassed

/-- **One step keeps the record sound and never lowers its watermark.** -/
theorem Sound.step {a : DeskAct} (h : Sound t r0 u s) (hs : s.step a = some s') :
    Lifts t r0 u s' := by
  obtain ⟨ht, hstep⟩ := h.tended.step hs
  cases hstep with
  | quiet hdb hlock hreading =>
    refine h.lifts_of_frame ht ?_ (by rw [hdb]; exact h.usage) (by rw [hdb])
    intro v q usage read hr
    rw [hreading] at hr
    exact (h.reads v q usage read hr).of_frame (by rw [hlock]) (by rw [hdb]) (by rw [hdb])
  | staged x a usage customer hfree husage hdb hlock hreading =>
    exact h.staged ht hfree husage hdb hlock hreading
  | counted x hfree hreports husage hlock hreading =>
    exact h.counted ht hfree hreports husage hlock hreading
  | moved r row hmem hadv hstatus hdb hlock hreading =>
    exact h.moved ht hmem hadv hstatus hdb hlock hreading
  | read w report usage hfree husage hdb hlock hreading =>
    exact h.fresh_read ht hfree husage hdb hlock hreading
  | finished w report usage read hwas hdb hlock hreading =>
    exact h.finished ht hwas hdb hlock hreading
  | abandoned w report usage read hwas hdb hlock hreading =>
    exact h.abandoned ht hwas hdb hlock hreading

/-! ## Every run -/

theorem sound_of_reach {s₀ : ReportDesk} {u₀ : UsageRecord} (h₀ : s₀.Opened)
    (hu₀ : s₀.db.usage t = some u₀)
    (hreach : GuardedRun.Reach (fun s a => s.step a) GuardedRun.Always s₀ s) :
    ∃ u, Sound t u₀.reported u s := by
  refine hreach.invariant (I := fun s => ∃ u, Sound t u₀.reported u s)
    ⟨u₀, sound_of_opened h₀ hu₀⟩ ?_
  rintro s a s' ⟨u, hu⟩ - hs
  obtain ⟨u', hu', -⟩ := hu.step hs
  exact ⟨u', hu'⟩

/-- A finish of the record that leaves all its reports reported reaches the mark. -/
theorem Sound.finished_mark (h : Sound t r0 u s)
    (hwas : (s.post w).reading = some (report, usage, read))
    (hdb : s'.db = (s.db.putUsage (finishUsage usage read report.id)).putReport report.confirm)
    (ht : report.usageRecordId = t) (hall : ∀ q ∈ s'.db.reportsFor t, q.status = .reported)
    {u' : UsageRecord} (hu' : s'.db.usage t = some u') (c : UsageCategory) :
    u'.reported c = mark (r0 c) ((s'.db.reportsFor t).map (fun q => q.snapshot c)) := by
  subst ht
  have hsane := h.tended.pending_of_reading hwas
  have hmem := (h.tended.held w report (copy_of_reading hwas)).2
  have hadv := advances_confirm hsane.1
  have hread := h.reads w report usage read hwas
  obtain rfl : usage = u := Option.some.inj (hread.usage.symm.trans h.usage)
  obtain ⟨husage, hreports⟩ := h.finished_rows hwas hdb
  have hrow := husage report.usageRecordId
  rw [if_pos rfl] at hrow
  obtain rfl : u' = finishUsage usage read report.id := Option.some.inj (hu'.symm.trans hrow)
  -- the confirmation changes no snapshot
  have hsnap : ((s.db.putReport report.confirm).reportsFor report.usageRecordId).map
      (fun q => q.snapshot c) =
      (s.db.reportsFor report.usageRecordId).map (fun q => q.snapshot c) := by
    have := congrArg (List.map fun x : Reservation => x.snapshot c)
      (h.tended.reservations_putReport hmem hadv report.usageRecordId)
    simpa [BillingReport.reservation, Function.comp_def] using this
  rw [hreports, hsnap]
  rw [hreports] at hall
  refine hread.finish_eq hsane.2 (fun q hq hne => ?_) h.reserved.start_le h.reserved.reported_le c
  refine hall q ?_
  rw [h.tended.reportsFor_putReport hmem hadv]
  exact List.mem_map.mpr ⟨q, hq, if_neg hne⟩

theorem Sound.finish_mark (h : Sound t r0 u s) (hs : s.step (.finish w) = some s')
    (hcopy : (s.post w).copy = some report) (ht : report.usageRecordId = t)
    (hall : ∀ q ∈ s'.db.reportsFor t, q.status = .reported) {u' : UsageRecord}
    (hu' : s'.db.usage t = some u') (c : UsageCategory) :
    u'.reported c = mark (r0 c) ((s'.db.reportsFor t).map (fun q => q.snapshot c)) := by
  simp only [ReportDesk.step, finish] at hs
  split at hs
  next safely report' usage read hp =>
    have hreading : (s.post w).reading = some (report', usage, read) := by rw [hp]; rfl
    obtain rfl : report' = report :=
      Option.some.inj ((copy_of_reading hreading).symm.trans hcopy)
    have hdb : s'.db =
        (s.db.putUsage (finishUsage usage read report'.id)).putReport report'.confirm := by
      rw [← Option.some.inj hs]
      rfl
    exact h.finished_mark hreading hdb ht hall hu' c
  · cases hs

/-- **The reported watermark is sound.**  In every state of every run that starts with
nothing staged, for every usage record there was and every category: the watermark is at
most the count from which any charge without a recorded item starts; no step lowers it; and
a finish of the record after which all its reports are reported leaves it at the largest of
the initial watermark and all their snapshots. -/
theorem watermark_sound {s₀ : ReportDesk} {u₀ : UsageRecord} (h₀ : s₀.Opened)
    (hu₀ : s₀.db.usage t = some u₀)
    (hreach : GuardedRun.Reach (fun s a => s.step a) GuardedRun.Always s₀ s) :
    ∃ u, s.db.usage t = some u ∧ ∀ c,
      (∀ r ∈ s.db.reportsFor t, ∀ q, r.requests c = some q → r.stripeItemIds c = none →
        u.reported c ≤ q.metadata.fromCount) ∧
      ∀ a s', s.step a = some s' → ∃ u', s'.db.usage t = some u' ∧
        u.reported c ≤ u'.reported c ∧
        ∀ w report, a = .finish w → (s.post w).copy = some report → report.usageRecordId = t →
          (∀ r ∈ s'.db.reportsFor t, r.status = .reported) →
          u'.reported c = mark (u₀.reported c) ((s'.db.reportsFor t).map (fun r => r.snapshot c)) := by
  obtain ⟨u, hu⟩ := sound_of_reach h₀ hu₀ hreach
  refine ⟨u, hu.usage, fun c => ⟨fun r hr => hu.unpassed r hr c, fun a s' hs => ?_⟩⟩
  obtain ⟨u', hu', hle⟩ := hu.step hs
  refine ⟨u', hu'.usage, hle c, ?_⟩
  rintro w report rfl hcopy ht hall
  exact hu.finish_mark hs hcopy ht hall hu'.usage c

/-- A report is staged and delivered, and its worker is about to finish it. -/
def toFinish : List DeskAct :=
  toIntent ++ [.lock 1, .begin 1 1, .answer 1 (.item ⟨"ii", ⟨"rep", .traces, "org", 0, 6000⟩, 400,
    "usd", 1⟩), .record 1, .lock 1, .begin 1 2, .lockUsage 1]

/-- The one report of the record is delivered, and `finish` moves the watermark from zero to
its snapshot. -/
theorem watermark_sound_delivered :
    ∃ s s' u', GuardedRun.run (fun s a => s.step a) heavyDesk toFinish = some s ∧
      s.step (.finish 1) = some s' ∧ s'.db.usage 0 = some u' ∧
      u'.reported .traces = mark 0 ((s'.db.reportsFor 0).map (fun r => r.snapshot .traces)) ∧
      (s'.db.reportsFor 0).map (fun r => r.snapshot .traces) = [6000] := by
  have hview : ((GuardedRun.run (fun s a => s.step a) heavyDesk toFinish).bind fun s =>
      (s.step (.finish 1)).map fun s' => ((s.post 1).copy.map (·.usageRecordId),
        (s'.db.reportsFor 0).map (fun r => (r.status, r.snapshot .traces)))) =
      some (some 0, [(.reported, 6000)]) := by decide +kernel
  obtain ⟨s, hs, hrest⟩ := Option.bind_eq_some_iff.mp hview
  obtain ⟨s', hs', hv⟩ := Option.map_eq_some_iff.mp hrest
  obtain ⟨hrecord, hrows⟩ := Prod.mk.inj hv
  obtain ⟨report, hcopy, ht⟩ := Option.map_eq_some_iff.mp hrecord
  have hall : ∀ r ∈ s'.db.reportsFor 0, r.status = .reported := by
    intro r hr
    have hmem : (r.status, r.snapshot .traces) ∈ [(ReportStatus.reported, (6000 : Int))] :=
      hrows ▸ List.mem_map_of_mem hr
    exact congrArg Prod.fst (List.mem_singleton.mp hmem)
  have hsnaps := congrArg (List.map Prod.snd) hrows
  simp only [List.map_map, Function.comp_def] at hsnaps
  obtain ⟨u, -, hu⟩ := watermark_sound heavyDesk_opened heavyDesk_usage (GuardedRun.reach_of_run hs)
  obtain ⟨u', hu', -, hmark⟩ := (hu .traces).2 _ s' hs'
  exact ⟨s, s', u', hs, hs', hu', hmark 1 report rfl hcopy ht hall, hsnaps⟩

end ReportDesk
end PandaProbe
