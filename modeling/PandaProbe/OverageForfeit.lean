import PandaProbe.OverageBooks

/-! # No handler forfeits synced overage

Once a record is closed (billed, or no longer of the stored Stripe subscription) nothing
reserves its usage any more, so the property is that every closed record is secured
(`NoForfeit`).

Every commit leaves the counters alone, is a sync of an open record, or stages the record
it syncs.  Beside the run goes an account of what its syncs and reports have read for each
record (`OverageHistory`); it takes no part in the run (`reach_history`).  A run keeps the
property as long as its steps are `InTurn`: tasks commit on the row they read, a deletion gets
the overage lock, and a subscription is given up only when its syncs have read nothing above
the allowance that its last report had not read.  `overage_forfeited` has two runs that are
not: a deletion while the reporter holds the lock, and a checkout that replaces a subscription.
-/
namespace PandaProbe
namespace OverageRun
open BillingDb

/-- **Every closed pay-as-you-go record is secured.** -/
def NoForfeit (s : OverageRun) : Prop :=
  ∀ t, Closed s.st.db s.origin t → Secured s.st.db s.origin t

/-! ## The accounts of a run -/

/-- What a run has read of the counters of a record: at the last report, and at the syncs
since. -/
structure Account where
  reported : UsageCategory → Int
  since : List (UsageCategory → Int)

namespace Account
variable (a : Account) (read : Option (UsageCategory → Int))

/-- Nothing has been read. -/
def empty : Account := ⟨fun _ => 0, []⟩

/-- A sync, which stores nothing if the hash is empty. -/
def sync : Account := { a with since := a.since ++ read.toList }

/-- A report, which syncs before it stages. -/
def report : Account := ⟨read.getD a.reported, []⟩

/-- No sync since the last report has read more than the allowance, unless the report had. -/
def Within (plan : SubscriptionPlan) : Prop :=
  ∀ counts ∈ a.since, ∀ c, counts c ≤ max (plan.base c) (a.reported c)

end Account

/-- What a step enters in the accounts. -/
inductive Entry
  | synced (start : DateTime)
  | reported (start : DateTime)

section history
variable (orgId : UUID) (s : OverageRun)

/-- The counters of a period in Redis, if there are any. -/
def reads (start : DateTime) : Option (UsageCategory → Int) :=
  if s.st.hashEmpty (usageKey orgId start) then none
  else some (s.st.redis.value (usageKey orgId start))

/-- The entry of a reservation that goes through: a report, if there is a customer. -/
def reserveEntry (sub : Subscription) (ctx : HandlerCtx) : Option Entry :=
  match s.st.reserve orgId sub ctx with
  | .error _ => none
  | .ok _ =>
    some (if sub.stripeCustomerId.isSome then .reported sub.currentPeriodStart
      else .synced sub.currentPeriodStart)

/-- The entry of a step. -/
def entry : OverageAct → Option Entry
  | .commitReport w ctx =>
    match s.task w with
    | .reportRead sub => s.reserveEntry orgId sub ctx
    | _ => none
  | .commitSync w =>
    match s.task w with
    | .syncRead sub => some (.synced sub.currentPeriodStart)
    | _ => none
  | .commitPaid w ctx =>
    match s.task w with
    | .paidRead sub obj _ start stop false =>
      match s.st.closePaid orgId sub obj ctx start stop with
      | .error _ => none
      | .ok _ => some (.reported start)
    | _ => none
  | .reportDeleted w ctx =>
    match s.task w, s.lock with
    | .deleting sub, none =>
      if (getPlanConfig sub.plan).payAsYouGo ∧ sub.stripeCustomerId.isSome then
        s.reserveEntry orgId sub ctx
      else none
    | _, _ => none
  | .commitDeleted w ctx =>
    match s.task w with
    | .skipped sub =>
      let period := (sub.currentPeriodStart, sub.currentPeriodEnd)
      match (s.st.syncToDatabase orgId (some period)).downgrade orgId sub ctx with
      | .error _ => none
      | .ok _ => some (.synced sub.currentPeriodStart)
    | _ => none
  | _ => none

/-- The accounts after an entry. -/
def note (account : DateTime → Account) : Option Entry → DateTime → Account
  | none => account
  | some (.synced t) => Function.update account t ((account t).sync (s.reads orgId t))
  | some (.reported t) => Function.update account t ((account t).report (s.reads orgId t))

end history

end OverageRun

/-- A run and its accounts. -/
structure OverageHistory where
  run : OverageRun
  account : DateTime → OverageRun.Account

namespace OverageHistory

/-- One step, and its entry. -/
def step (orgId : UUID) (s : OverageHistory) (a : OverageAct) : Option OverageHistory :=
  (s.run.step orgId a).map fun run =>
    ⟨run, s.run.note orgId s.account (s.run.entry orgId a)⟩

/-- Nothing has happened yet. -/
def initial : OverageHistory := ⟨OverageRun.initial, fun _ => .empty⟩

end OverageHistory

namespace OverageRun
open BillingDb

/-- **The accounts take no part in a run**: every run has them. -/
theorem reach_history {orgId : UUID} {s : OverageRun}
    (h : GuardedRun.Reach (fun s a => s.step orgId a) GuardedRun.Always initial s) :
    ∃ account, GuardedRun.Reach (OverageHistory.step orgId) GuardedRun.Always
      OverageHistory.initial ⟨s, account⟩ := by
  induction h with
  | initial => exact ⟨_, .initial⟩
  | step _ _ hs ih =>
    obtain ⟨account, hreach⟩ := ih
    exact ⟨_, .step hreach trivial (Option.map_eq_some_iff.mpr ⟨_, hs, rfl⟩)⟩

/-! ## The condition -/

/-- The record of a period is open for syncs. -/
def Unbilled (s : OverageRun) (t : DateTime) : Prop :=
  ∀ u, s.st.db.usage t = some u → u.billed = false

/-- No deletion stands between its report on a period and its downgrade. -/
def NoGap (s : OverageRun) (t : DateTime) : Prop :=
  ∀ w sub, s.task w = .delivering sub ∨ s.task w = .finalizing sub → sub.currentPeriodStart ≠ t

/-- A period is new or was incurred under the given subscription and plan. -/
def Own (s : OverageRun) (t : DateTime) (o : Incurred) : Prop :=
  s.origin t = none ∨ s.origin t = some o

/-- The task commits on the subscription row it read. -/
def OnItsRow (s : OverageRun) (sub : Subscription) : Prop := s.st.db.subscription = some sub

/-- For every pay-as-you-go record of the Stripe subscription, but for one, the syncs since its
last report have read no more than the allowance or that report. -/
def RestWithin (s : OverageHistory) (subscriptionId : Option String) (but : Option DateTime) :
    Prop :=
  ∀ t o x, s.run.origin t = some o → o.subscriptionId = some x → subscriptionId = some x →
    some t ≠ but → (getPlanConfig o.plan).payAsYouGo = true → (s.account t).Within o.plan

/-- **The condition on a step.**  A commit is on the row the task read, and a sync or a
reservation is of a record that is not billed; a plain sync does not come between a
deletion's report and its downgrade; a deletion of a pay-as-you-go subscription finds the
overage lock free; an invoice and a checkout name periods of their own subscription; and a
Stripe subscription is given up only when the syncs of its records, but for the one a deletion
has reported, have read nothing above the allowance since the last report that it had not. -/
def InTurn (s : OverageHistory) : OverageAct → Prop
  | .commitReport w _ => ∀ sub, s.run.task w = .reportRead sub →
      OnItsRow s.run sub ∧ Unbilled s.run sub.currentPeriodStart ∧
        (sub.stripeCustomerId = none → NoGap s.run sub.currentPeriodStart)
  | .commitSync w => ∀ sub, s.run.task w = .syncRead sub →
      OnItsRow s.run sub ∧ Unbilled s.run sub.currentPeriodStart ∧
        NoGap s.run sub.currentPeriodStart
  | .checkout obj _ =>
      Own s.run (DateTime.fromTimestamp obj.periodStart) ⟨some obj.subscriptionId, obj.plan⟩ ∧
        (storedId s.run.st.db = some obj.subscriptionId ∨ RestWithin s (storedId s.run.st.db) none)
  | .commitPaid w _ =>
      (∀ sub obj live, s.run.task w = .paying sub obj live →
        OnItsRow s.run sub ∧ Own s.run (DateTime.fromTimestamp live.1) sub.incurs) ∧
      (∀ sub obj live start stop closed, s.run.task w = .paidRead sub obj live start stop closed →
        OnItsRow s.run sub ∧ Own s.run (DateTime.fromTimestamp live.1) sub.incurs ∧
          (closed = false → Own s.run start sub.incurs ∧ Unbilled s.run start))
  | .reportDeleted w _ => ∀ sub, s.run.task w = .deleting sub →
      (getPlanConfig sub.plan).payAsYouGo ∧ sub.stripeCustomerId.isSome →
        s.run.lock = none ∧ OnItsRow s.run sub ∧ Unbilled s.run sub.currentPeriodStart
  | .commitDeleted w _ => ∀ sub, s.run.task w = .finalizing sub →
      OnItsRow s.run sub ∧ RestWithin s sub.stripeSubscriptionId
        (if sub.stripeCustomerId.isSome then some sub.currentPeriodStart else none)
  | _ => True

variable {db db' : BillingDb} {origin : DateTime → Option Incurred} {t : DateTime}
  {o : Incurred} {T : Set DateTime}

/-! ## The invariant -/

/-- A deletion has reported a period and not yet downgraded. -/
def InGap (s : OverageRun) (t : DateTime) : Prop :=
  ∃ w sub, (s.task w = .delivering sub ∨ s.task w = .finalizing sub) ∧
    (getPlanConfig sub.plan).payAsYouGo = true ∧ sub.stripeCustomerId.isSome ∧
      sub.currentPeriodStart = t

/-- **The account of a record and its rows**: what the last report read is within the allowance
or reserved; and where no sync has read more since, all that is stored is. -/
structure Balanced (db : BillingDb) (origin : DateTime → Option Incurred) (t : DateTime)
    (a : Account) : Prop where
  fresh : origin t = none → a = .empty
  reported : ∀ o, origin t = some o → (getPlanConfig o.plan).payAsYouGo = true →
    ∀ c, a.reported c ≤ max (o.plan.base c) (db.largestSnapshot t c)
  quiet : (∀ o, origin t = some o → (getPlanConfig o.plan).payAsYouGo = true →
    a.Within o.plan) → Secured db origin t

/-- **The invariant.** -/
structure Sound (s : OverageRun) (account : DateTime → Account) : Prop where
  books : Books s.st.db s.origin
  current : Current s.st.db s.origin
  closed : NoForfeit s
  gap : ∀ t, InGap s t → Secured s.st.db s.origin t
  unskipped : ∀ w sub, s.task w ≠ .skipped sub
  accounts : ∀ t, Balanced s.st.db s.origin t (account t)

variable {s s' : OverageRun} {w : Nat} {account account' : DateTime → Account}
  {a : Account} {read : Option (UsageCategory → Int)} {orgId : UUID}

theorem sound_initial : Sound initial (fun _ => .empty) where
  books := ⟨fun _ => rfl, fun r hr => absurd hr List.not_mem_nil,
    fun r hr => absurd hr List.not_mem_nil, fun r hr => absurd hr List.not_mem_nil,
    fun t u c hu => by cases hu⟩
  current := fun sub hsub => by cases hsub
  closed := fun t _ u o hu => by cases hu
  gap := fun t _ u o hu => by cases hu
  unskipped := fun w sub h => by cases h
  accounts := fun t => ⟨fun _ => rfl, fun o ho => absurd ho.symm (Option.some_ne_none o),
    fun _ u o hu => absurd hu.symm (Option.some_ne_none u)⟩

theorem Sound.withLock (h : Sound s account) (l : Option Nat) :
    Sound { s with lock := l } account :=
  ⟨h.books, h.current, h.closed, h.gap, h.unskipped, h.accounts⟩

theorem Sound.unlock (h : Sound s account) (w : Nat) : Sound (s.unlock w) account := by
  unfold OverageRun.unlock
  split
  · exact h.withLock none
  · exact h

theorem InGap.of_goto {task : Task} (hg : InGap (s.goto w task) t) :
    InGap s t ∨ ∃ sub, (task = .delivering sub ∨ task = .finalizing sub) ∧
      (getPlanConfig sub.plan).payAsYouGo = true ∧ sub.stripeCustomerId.isSome ∧
        sub.currentPeriodStart = t := by
  obtain ⟨v, sub, htask, hrest⟩ := hg
  by_cases hvw : v = w
  · subst hvw
    change Function.update s.task v task v = _ ∨ Function.update s.task v task v = _ at htask
    rw [Function.update_self] at htask
    exact Or.inr ⟨sub, htask, hrest⟩
  · change Function.update s.task w task v = _ ∨ Function.update s.task w task v = _ at htask
    rw [Function.update_of_ne hvw] at htask
    exact Or.inl ⟨v, sub, htask, hrest⟩

/-- A task moves on, to a place before its report or after its commit. -/
theorem Sound.goto {task : Task} (h : Sound s account)
    (hgap : ∀ sub, task = .delivering sub ∨ task = .finalizing sub →
      (getPlanConfig sub.plan).payAsYouGo = true → sub.stripeCustomerId.isSome →
        Secured s.st.db s.origin sub.currentPeriodStart)
    (hskip : ∀ sub, task ≠ .skipped sub) : Sound (s.goto w task) account where
  books := h.books
  current := h.current
  closed := h.closed
  gap := by
    intro t hg
    rcases hg.of_goto with hg | ⟨sub, htask, hpaid, hcust, rfl⟩
    · exact h.gap t hg
    · exact hgap sub htask hpaid hcust
  unskipped := (Function.forall_update_iff s.task (fun _ t => ∀ sub, t ≠ .skipped sub)).mpr
    ⟨hskip, fun v _ => h.unskipped v⟩
  accounts := h.accounts

/-- A place that is no part of a deletion past its report. -/
def plain : Task → Bool
  | .delivering _ | .finalizing _ | .skipped _ => false
  | _ => true

/-- A task moves on to a plain place. -/
theorem Sound.goto_plain {task : Task} (h : Sound s account) (htask : plain task = true) :
    Sound (s.goto w task) account := by
  refine h.goto (fun sub hg => ?_) (fun sub he => ?_)
  · rcases hg with rfl | rfl
    · cases htask
    · cases htask
  · subst he
    cases htask

theorem Sound.fail (h : Sound s account) (w : Nat) : Sound (s.fail w) account :=
  (h.unlock w).goto_plain rfl

/-- A record outside `T` keeps its counters. -/
theorem Evolves.count (h : Evolves T db db') (ht : t ∉ T) {u : UsageRecord}
    (hu : db.usage t = some u) : ∃ u', db'.usage t = some u' ∧ u'.count = u.count := by
  obtain ⟨u', hu'⟩ := Option.isSome_iff_exists.mp (h.kept t (hu ▸ rfl))
  rcases h.rows t ht u' hu' with ⟨v, hv, hcount, -⟩ | ⟨hnone, -⟩
  · obtain rfl := Option.some.inj (hu.symm.trans hv)
    exact ⟨u', hu', hcount⟩
  · rw [hu] at hnone
    cases hnone

theorem noteOrigin_eq_none (h : noteOrigin o db origin t = none) : origin t = none := by
  unfold noteOrigin at h
  split at h
  · cases h
  · exact h

/-- What the last report read stays reserved. -/
theorem Balanced.reported_note (h : Balanced db origin t a)
    (hsnap : ∀ c, db.largestSnapshot t c ≤ db'.largestSnapshot t c) (o' : Incurred)
    (ho' : noteOrigin o db' origin t = some o') (hpaid : (getPlanConfig o'.plan).payAsYouGo = true)
    (c : UsageCategory) : a.reported c ≤ max (o'.plan.base c) (db'.largestSnapshot t c) := by
  cases ho : origin t with
  | none =>
    -- a record of this commit: nothing has been read for it
    rw [h.fresh ho]
    exact (SubscriptionPlan.base_nonneg _ c).trans (le_max_left _ _)
  | some o₁ =>
    obtain rfl := Option.some.inj ((noteOrigin_of_some db' ho).symm.trans ho')
    exact (h.reported _ ho hpaid c).trans (max_le_max_left _ (hsnap c))

/-- A record that a commit does not write keeps its account. -/
theorem Balanced.evolves (h : Balanced db origin t a)
    (hnoted : ∀ t, (db.usage t).isSome = (origin t).isSome) (hev : Evolves T db db')
    (ht : t ∉ T) : Balanced db' (noteOrigin o db' origin) t a where
  fresh := fun hnone => h.fresh (noteOrigin_eq_none hnone)
  reported := h.reported_note (hev.snapshots t)
  quiet := fun hquiet => (h.quiet fun o₁ ho₁ => hquiet o₁ (noteOrigin_of_some db' ho₁)).evolves
    hnoted hev ht

/-- What has been read has a record, and so an origin. -/
theorem not_read_of_noteOrigin
    (hread : ∀ counts, read = some counts → ∃ u, db'.usage t = some u ∧ u.count = counts)
    (hnone : noteOrigin o db' origin t = none) : read = none := by
  cases hr : read with
  | none => rfl
  | some counts =>
    obtain ⟨u, hu, -⟩ := hread counts hr
    rw [noteOrigin_of_none (noteOrigin_eq_none hnone) (hu ▸ rfl)] at hnone
    cases hnone

/-- A report that secures what it has read balances the account. -/
theorem Balanced.report (h : Balanced db origin t a)
    (hsnap : ∀ c, db.largestSnapshot t c ≤ db'.largestSnapshot t c)
    (hread : ∀ counts, read = some counts → ∃ u, db'.usage t = some u ∧ u.count = counts)
    (hsec : Secured db' (noteOrigin o db' origin) t) :
    Balanced db' (noteOrigin o db' origin) t (a.report read) where
  fresh := fun hnone => by
    obtain rfl := not_read_of_noteOrigin hread hnone
    rw [h.fresh (noteOrigin_eq_none hnone)]
    rfl
  reported := fun o' ho' hpaid c => by
    cases hr : read with
    | none => exact h.reported_note hsnap o' ho' hpaid c
    | some counts =>
      obtain ⟨u, hu, rfl⟩ := hread counts hr
      exact hsec u o' hu ho' hpaid c
  quiet := fun _ => hsec

/-- A sync that has read no more than the allowance or the last report secures the record. -/
theorem Balanced.sync (h : Balanced db origin t a)
    (hsnap : ∀ c, db.largestSnapshot t c ≤ db'.largestSnapshot t c)
    (hread : ∀ counts, read = some counts → ∃ u, db'.usage t = some u ∧ u.count = counts)
    (hempty : read = none → Secured db origin t → Secured db' (noteOrigin o db' origin) t) :
    Balanced db' (noteOrigin o db' origin) t (a.sync read) where
  fresh := fun hnone => by
    obtain rfl := not_read_of_noteOrigin hread hnone
    rw [h.fresh (noteOrigin_eq_none hnone)]
    rfl
  reported := h.reported_note hsnap
  quiet := fun hquiet => by
    cases hr : read with
    | none =>
      refine hempty hr (h.quiet fun o₁ ho₁ hpaid counts hmem => ?_)
      exact hquiet o₁ (noteOrigin_of_some db' ho₁) hpaid counts (List.mem_append_left _ hmem)
    | some counts =>
      intro u' o' hu' ho' hpaid c
      obtain ⟨u, hu, rfl⟩ := hread counts hr
      obtain rfl := Option.some.inj (hu.symm.trans hu')
      have hlast : u.count ∈ (a.sync read).since := by
        rw [hr]
        exact List.mem_append_right _ (List.mem_singleton_self _)
      have hle := hquiet o' ho' hpaid u.count hlast c
      exact hle.trans (max_le (le_max_left _ _) (h.reported_note hsnap o' ho' hpaid c))

/-- **A commit keeps the invariant** if the rows evolve outside `T`, what is in `T` is
secured where it has to be, and what stops being of the stored subscription was secured. -/
theorem Sound.store {st : UsageState} (h : Sound s account) (hev : Evolves T s.st.db st.db)
    (hbooks : Books st.db (noteOrigin o st.db s.origin))
    (hcurrent : Current st.db (noteOrigin o st.db s.origin))
    (hT : ∀ t ∈ T, Closed st.db (noteOrigin o st.db s.origin) t ∨ InGap s t →
      Secured st.db (noteOrigin o st.db s.origin) t)
    (horphan : ∀ t o' x, s.origin t = some o' → o'.subscriptionId = some x →
      storedId s.st.db = some x → storedId st.db ≠ some x → Secured s.st.db s.origin t)
    (haccounts : ∀ t ∈ T, Balanced st.db (noteOrigin o st.db s.origin) t (account' t))
    (hsame : ∀ t ∉ T, account' t = account t) : Sound (s.store st o) account' where
  books := hbooks
  current := hcurrent
  closed := by
    intro t hclosed
    by_cases ht : t ∈ T
    · exact hT t ht (Or.inl hclosed)
    have hold : Secured s.st.db s.origin t := by
      rcases hclosed with ⟨u', hu', hbilled⟩ | ⟨o', x, ho', hx, hne⟩
      · rcases hev.rows t ht u' hu' with ⟨u, hu, -, hsame⟩ | ⟨-, -, hopen⟩
        · exact h.closed t (Or.inl ⟨u, hu, hsame ▸ hbilled⟩)
        · rw [hopen] at hbilled
          cases hbilled
      · cases ho : s.origin t with
        | none =>
          -- a record of this commit: there was nothing to secure
          have hnone := h.books.noted t
          rw [ho] at hnone
          intro u o hu
          rw [hu] at hnone
          cases hnone
        | some o₁ =>
          have hsame : o₁ = o' := Option.some.inj ((noteOrigin_of_some _ ho).symm.trans ho')
          by_cases hstored : storedId s.st.db = some x
          · exact horphan t o₁ x ho (hsame ▸ hx) hstored hne
          · exact h.closed t (Or.inr ⟨o₁, x, ho, hsame ▸ hx, hstored⟩)
    exact hold.evolves h.books.noted hev ht
  gap := by
    intro t hg
    by_cases ht : t ∈ T
    · exact hT t ht (Or.inr hg)
    · exact (h.gap t hg).evolves h.books.noted hev ht
  unskipped := h.unskipped
  accounts := by
    intro t
    by_cases ht : t ∈ T
    · exact haccounts t ht
    · rw [hsame t ht]
      exact (h.accounts t).evolves h.books.noted hev ht

/-- A commit that syncs and reports nothing. -/
theorem Sound.store_empty {st : UsageState} (h : Sound s account) (hev : Evolves ∅ s.st.db st.db)
    (hbooks : Books st.db (noteOrigin o st.db s.origin))
    (hcurrent : Current st.db (noteOrigin o st.db s.origin))
    (horphan : ∀ t o' x, s.origin t = some o' → o'.subscriptionId = some x →
      storedId s.st.db = some x → storedId st.db ≠ some x → Secured s.st.db s.origin t) :
    Sound (s.store st o) account :=
  h.store hev hbooks hcurrent (fun t ht => absurd ht (Set.notMem_empty t)) horphan
    (fun t ht => absurd ht (Set.notMem_empty t)) fun _ _ => rfl

/-! ## The commits -/

section commits
variable {orgId : UUID} {st st' : UsageState} {sub : Subscription}

/-- An open record of the stored subscription is not closed. -/
theorem not_closed (hopen : ∀ u, db.usage t = some u → u.billed = false)
    (ho : origin t = some sub.incurs) (hrow : storedId db = sub.stripeSubscriptionId) :
    ¬Closed db origin t := by
  rintro (⟨u, hu, hbilled⟩ | ⟨o', x, ho', hx, hne⟩)
  · rw [hopen u hu] at hbilled
    cases hbilled
  · rw [ho] at ho'
    cases ho'
    exact hne (hrow.trans hx)

theorem Current.note (h : Current db origin) (hsub : db'.subscription = db.subscription)
    (o : Incurred) : Current db' (noteOrigin o db' origin) :=
  fun sub hrow => noteOrigin_of_some _ (h sub (hsub ▸ hrow))

theorem storedId_of_row (h : db.subscription = some sub) :
    storedId db = sub.stripeSubscriptionId := by
  unfold storedId
  rw [h]
  rfl

theorem storedId_congr (h : db'.subscription = db.subscription) : storedId db' = storedId db := by
  unfold storedId
  rw [h]

/-- A commit of a sync or a reservation of the stored subscription's open record. -/
theorem Sound.reserved (h : Sound s account) (hrow : s.st.db.subscription = some sub)
    (hev : Evolves {sub.currentPeriodStart} s.st.db st.db)
    (hbooks : Books st.db (noteOrigin sub.incurs st.db s.origin))
    (hsub : st.db.subscription = s.st.db.subscription)
    (hopen : ∀ u, st.db.usage sub.currentPeriodStart = some u → u.billed = false)
    (hgap : InGap s sub.currentPeriodStart →
      Secured st.db (noteOrigin sub.incurs st.db s.origin) sub.currentPeriodStart)
    (hbalanced : Balanced st.db (noteOrigin sub.incurs st.db s.origin) sub.currentPeriodStart a) :
    Sound (s.store st sub.incurs) (Function.update account sub.currentPeriodStart a) := by
  refine h.store hev hbooks (h.current.note hsub _) ?_ ?_ ?_ fun t ht => Function.update_of_ne ht ..
  · rintro t rfl (hclosed | hg)
    · exact absurd hclosed (not_closed hopen (noteOrigin_of_some _ (h.current sub hrow))
        (storedId_of_row (hsub.trans hrow)))
    · exact hgap hg
  · intro t o' x _ _ hstored hne
    exact absurd ((storedId_congr hsub).trans hstored) hne
  · rintro t rfl
    rw [Function.update_self]
    exact hbalanced

/-- What a sync has read is stored. -/
theorem sync_of_reads {start : DateTime} {counts : UsageCategory → Int}
    (h : s.reads orgId start = some counts) (stop : DateTime) :
    ∃ u, (s.st.syncToDatabase orgId (some (start, stop))).db.usage start = some u ∧
      u.count = counts := by
  unfold reads at h
  rw [UsageState.syncToDatabase_some]
  split at h
  · cases h
  next hfull =>
    rw [if_neg hfull]
    refine ⟨_, by rw [upsertUsageCounters_usage, if_pos rfl], ?_⟩
    exact Option.some.inj h

/-- A sync that has read nothing changes nothing. -/
theorem sync_of_not_reads {start : DateTime} (h : s.reads orgId start = none) (stop : DateTime) :
    s.st.syncToDatabase orgId (some (start, stop)) = s.st := by
  unfold reads at h
  rw [UsageState.syncToDatabase_some]
  split at h
  next hempty => rw [if_pos hempty]
  · cases h

/-- Staging changes no record. -/
theorem reserve_usage {ctx : HandlerCtx} (h : st.reserve orgId sub ctx = .ok st') :
    st'.db.usage = (st.syncToDatabase orgId
      (some (sub.currentPeriodStart, sub.currentPeriodEnd))).db.usage := by
  unfold UsageState.reserve at h
  simp only at h
  split at h
  · cases h
    rfl
  · split at h
    · cases h
    next db hstage =>
      cases h
      exact (stage_frame hstage).1

/-- A reservation without a customer is a sync. -/
theorem reserve_of_not_customer {ctx : HandlerCtx} (h : st.reserve orgId sub ctx = .ok st')
    (hcust : sub.stripeCustomerId = none) :
    st' = st.syncToDatabase orgId (some (sub.currentPeriodStart, sub.currentPeriodEnd)) := by
  unfold UsageState.reserve at h
  rw [hcust] at h
  exact (Except.ok.inj h).symm

/-- The close of a renewal leaves the counters as it has synced them. -/
theorem closePaid_usage {obj : InvoiceEvent} {ctx : HandlerCtx} {start stop : DateTime}
    (h : st.closePaid orgId sub obj ctx start stop = .ok st') {u : UsageRecord}
    (hu : (st.syncToDatabase orgId (some (start, stop))).db.usage start = some u) :
    ∃ u', st'.db.usage start = some u' ∧ u'.count = u.count := by
  unfold UsageState.closePaid at h
  simp only at h
  split at h
  · cases h
  · split at h
    · cases h
    next db hstage =>
      cases h
      refine ⟨{ u with billed := true, stripeInvoiceId := some obj.id }, ?_, rfl⟩
      change (db.markBilled start (some obj.id)).usage start = _
      rw [markBilled_usage, if_pos rfl, (stage_frame hstage).1, hu]
      rfl

/-- **A sync of the stored subscription's open record**, outside of a deletion's gap. -/
theorem Sound.sync (h : Sound s account) (hrow : OnItsRow s sub)
    (hopen : Unbilled s sub.currentPeriodStart) (hgap : NoGap s sub.currentPeriodStart) :
    Sound (s.store (s.st.syncToDatabase orgId
        (some (sub.currentPeriodStart, sub.currentPeriodEnd))) sub.incurs)
      (s.note orgId account (some (.synced sub.currentPeriodStart))) := by
  obtain ⟨hev, hbooks, hsub, hopen'⟩ :=
    sync_spec orgId s.st sub.currentPeriodStart sub.currentPeriodEnd sub.incurs h.books
  refine h.reserved hrow hev hbooks hsub (hopen' hopen) (fun hg => ?_)
    ((h.accounts _).sync (hev.snapshots _) (fun counts hread => sync_of_reads hread _)
      fun hempty hsec => ?_)
  · obtain ⟨v, sub', htask', -, -, hstart⟩ := hg
    exact absurd hstart (hgap v sub' htask')
  · rw [sync_of_not_reads hempty, noteOrigin_eq_self h.books.noted]
    exact hsec

/-- **The first commit of the reporter and of a deletion.** -/
theorem Sound.reserve {ctx : HandlerCtx} (h : Sound s account) (hrow : OnItsRow s sub)
    (hopen : Unbilled s sub.currentPeriodStart)
    (hgap : sub.stripeCustomerId = none → NoGap s sub.currentPeriodStart)
    (hok : s.st.reserve orgId sub ctx = .ok st) :
    Sound (s.store st sub.incurs) (s.note orgId account (s.reserveEntry orgId sub ctx)) ∧
      (sub.stripeCustomerId ≠ none →
        Secured st.db (noteOrigin sub.incurs st.db s.origin) sub.currentPeriodStart) := by
  obtain ⟨hev, hbooks, hsub, hopen', hsec⟩ := reserve_spec h.books (h.current sub hrow) hopen hok
  refine ⟨?_, hsec⟩
  unfold reserveEntry
  rw [hok]
  cases hcust : sub.stripeCustomerId with
  | none =>
    rw [reserve_of_not_customer hok hcust]
    exact h.sync hrow hopen (hgap hcust)
  | some customer =>
    have hsecured := hsec (hcust ▸ Option.some_ne_none _)
    refine h.reserved hrow hev hbooks hsub hopen' (fun _ => hsecured)
      ((h.accounts _).report (hev.snapshots _) (fun counts hread => ?_) hsecured)
    rw [reserve_usage hok]
    exact sync_of_reads hread _

theorem sound_commitReport {ctx : HandlerCtx} (h : Sound s account)
    (hturn : InTurn ⟨s, account⟩ (.commitReport w ctx))
    (hs : s.commitReport orgId w ctx = some s') :
    Sound s' (s.note orgId account (s.entry orgId (.commitReport w ctx))) := by
  unfold commitReport at hs
  split at hs
  next sub htask =>
    cases hs
    obtain ⟨hrow, hopen, hgap⟩ := hturn sub htask
    simp only [entry, htask]
    unfold commit
    split
    next e herror =>
      rw [reserveEntry, herror]
      exact h.fail w
    next st hok => exact (h.reserve hrow hopen hgap hok).1.goto_plain rfl
  · cases hs

theorem sound_commitSync (h : Sound s account) (hturn : InTurn ⟨s, account⟩ (.commitSync w))
    (hs : s.commitSync orgId w = some s') :
    Sound s' (s.note orgId account (s.entry orgId (.commitSync w))) := by
  unfold commitSync at hs
  split at hs
  next sub htask =>
    cases hs
    obtain ⟨hrow, hopen, hgap⟩ := hturn sub htask
    simp only [entry, htask]
    exact (h.sync hrow hopen hgap).goto_plain rfl
  · cases hs

/-- **What is given up is secured**: its account says so. -/
theorem Sound.secured_of_restWithin (h : Sound s account) {subscriptionId : Option String}
    {but : Option DateTime} (hrest : RestWithin ⟨s, account⟩ subscriptionId but) {x : String}
    (ho : s.origin t = some o) (hx : o.subscriptionId = some x) (hid : subscriptionId = some x)
    (hne : some t ≠ but) : Secured s.st.db s.origin t := by
  refine (h.accounts t).quiet fun o' ho' hpaid => ?_
  obtain rfl := Option.some.inj (ho.symm.trans ho')
  exact hrest t o x ho hx hid hne hpaid

theorem sound_checkout {obj : CheckoutEvent} {ctx : HandlerCtx} (h : Sound s account)
    (hturn : InTurn ⟨s, account⟩ (.checkout obj ctx)) :
    Sound (s.store (s.st.handleCheckoutCompleted orgId obj ctx)
      ⟨some obj.subscriptionId, obj.plan⟩) account := by
  obtain ⟨hown, hrest⟩ := hturn
  obtain ⟨hev, hbooks, hcur, hstored⟩ := @checkout_spec _ orgId s.st ∅ obj ctx h.books hown
  refine h.store_empty hev hbooks hcur ?_
  intro t o' x ho' hx hold hne
  rcases hrest with hsame | hrest
  · exact absurd (hstored.trans (hsame.symm.trans hold)) hne
  · exact h.secured_of_restWithin hrest ho' hx hold (Option.some_ne_none t)

theorem sound_reportDeleted {ctx : HandlerCtx} (h : Sound s account)
    (hturn : InTurn ⟨s, account⟩ (.reportDeleted w ctx))
    (hs : s.reportDeleted orgId w ctx = some s') :
    Sound s' (s.note orgId account (s.entry orgId (.reportDeleted w ctx))) := by
  unfold reportDeleted at hs
  split at hs
  next sub htask =>
    split at hs
    next hpaid =>
      obtain ⟨hlock, hrow, hopen⟩ := hturn sub htask hpaid
      have hentry : s.entry orgId (.reportDeleted w ctx) = s.reserveEntry orgId sub ctx := by
        have hlock : s.lock = none := hlock
        simp only [entry, htask, hlock, if_pos hpaid]
      rw [show s.lock = none from hlock] at hs
      cases hs
      have hlocked := h.withLock (some w)
      rw [hentry]
      unfold commit
      split
      next e herror =>
        have herror : s.st.reserve orgId sub ctx = .error e := herror
        rw [reserveEntry, herror]
        exact hlocked.fail w
      next st hok =>
        have hcust := Option.isSome_iff_ne_none.mp hpaid.2
        obtain ⟨hstore, hsec⟩ := hlocked.reserve hrow hopen (fun hnone => absurd hnone hcust) hok
        have hsecured := hsec hcust
        refine hstore.goto ?_ (fun _ => nofun)
        rintro sub' (hd | hd) - -
        · cases hd
          exact hsecured
        · cases hd
    next hfree =>
      cases hs
      have hentry : s.entry orgId (.reportDeleted w ctx) = none := by
        simp only [entry, htask]
        split
        next _ _ heq _ =>
          cases heq
          exact if_neg hfree
        · rfl
      rw [hentry]
      refine h.goto ?_ (fun _ => nofun)
      rintro sub' (hd | hd) hpaid hcust
      · cases hd
      · cases hd
        exact absurd ⟨hpaid, hcust⟩ hfree
  · cases hs

/-- **A downgrade after a report**: the deletion has secured the current record, the accounts of
the subscription's other records secure those. -/
theorem Sound.downgrade_reported {ctx : HandlerCtx} (h : Sound s account) (hrow : OnItsRow s sub)
    (hreported : Secured s.st.db s.origin sub.currentPeriodStart)
    (hrest : RestWithin ⟨s, account⟩ sub.stripeSubscriptionId (some sub.currentPeriodStart))
    (hok : s.st.downgrade orgId sub ctx = .ok st) :
    Sound (s.store st ⟨none, .hobby⟩) account := by
  obtain ⟨hev, hbooks, hcur, -, hsec⟩ :=
    downgrade_spec h.books hrow hok fun _ => Set.mem_singleton sub.currentPeriodStart
  have hsec := hsec hreported
  refine h.store hev hbooks hcur ?_ ?_ ?_ fun _ _ => rfl
  · rintro t rfl -
    exact hsec
  · intro t o' x ho' hx hold _
    by_cases ht : t = sub.currentPeriodStart
    · rw [ht]
      exact hreported
    · exact h.secured_of_restWithin hrest ho' hx ((storedId_of_row hrow).symm.trans hold)
        fun he => ht (Option.some.inj he)
  · rintro t rfl
    have hacc := h.accounts sub.currentPeriodStart
    exact ⟨fun hnone => hacc.fresh (noteOrigin_eq_none hnone), hacc.reported_note (hev.snapshots _),
      fun _ => hsec⟩

/-- **A downgrade without a report** closes no record, and the subscription it gives up is either
not pay-as-you-go or has the accounts of all its records within the condition. -/
theorem Sound.downgrade_unreported {ctx : HandlerCtx} (h : Sound s account) (hrow : OnItsRow s sub)
    (hfree : ¬((getPlanConfig sub.plan).payAsYouGo ∧ sub.stripeCustomerId.isSome))
    (hrest : RestWithin ⟨s, account⟩ sub.stripeSubscriptionId
      (if sub.stripeCustomerId.isSome then some sub.currentPeriodStart else none))
    (hok : s.st.downgrade orgId sub ctx = .ok st) :
    Sound (s.store st ⟨none, .hobby⟩) account := by
  have horigin : s.origin sub.currentPeriodStart = some sub.incurs := h.current sub hrow
  obtain ⟨hev, hbooks, hcur, -, -⟩ :=
    @downgrade_spec _ ∅ orgId _ _ _ ctx h.books hrow hok fun hpaid => absurd hpaid hfree
  refine h.store_empty hev hbooks hcur ?_
  intro t o' x ho' hx hold _
  by_cases ht : some t ≠ if sub.stripeCustomerId.isSome then some sub.currentPeriodStart else none
  · exact h.secured_of_restWithin hrest ho' hx ((storedId_of_row hrow).symm.trans hold) ht
  · -- the current record of a subscription that is not pay-as-you-go
    rw [not_not] at ht
    split at ht
    next hcust =>
      cases ht
      intro u o hu ho hpaid
      rw [horigin] at ho
      cases ho
      exact absurd ⟨hpaid, hcust⟩ hfree
    · cases ht

theorem sound_commitDeleted {ctx : HandlerCtx} (h : Sound s account)
    (hturn : InTurn ⟨s, account⟩ (.commitDeleted w ctx))
    (hs : s.commitDeleted orgId w ctx = some s') :
    Sound s' (s.note orgId account (s.entry orgId (.commitDeleted w ctx))) := by
  unfold commitDeleted at hs
  split at hs
  next sub htask =>
    cases hs
    obtain ⟨hrow, hrest⟩ := hturn sub htask
    simp only [entry, htask]
    unfold commit
    split
    · exact h.fail w
    next st hok =>
      by_cases hpaid : (getPlanConfig sub.plan).payAsYouGo ∧ sub.stripeCustomerId.isSome
      · have hreported : Secured s.st.db s.origin sub.currentPeriodStart :=
          h.gap _ ⟨w, sub, Or.inr htask, hpaid.1, hpaid.2, rfl⟩
        rw [if_pos hpaid.2] at hrest
        exact (h.downgrade_reported hrow hreported hrest hok).goto_plain rfl
      · exact (h.downgrade_unreported hrow hpaid hrest hok).goto_plain rfl
  next sub htask => exact absurd htask (h.unskipped w sub)
  · cases hs

/-- **A renewal that closes nothing**: only the new period is opened. -/
theorem Sound.renew {ctx : HandlerCtx} {start : DateTime} (h : Sound s account)
    (hrow : OnItsRow s sub) (hown : Own s start sub.incurs) (stop : DateTime) :
    Sound (s.store (s.st.renew orgId ctx start stop) sub.incurs) account := by
  obtain ⟨hev, hbooks, hcur, hstored⟩ :=
    @renew_spec _ orgId s.st sub ∅ ctx _ stop h.books h.current hrow hown
  refine h.store_empty hev hbooks hcur ?_
  intro t o' x _ _ hold hne
  exact absurd (hstored.trans hold) hne

/-- **A renewal that closes the period before**: what it has synced is reserved, and opening the
new period leaves the closed record as it was. -/
theorem Sound.closePaid {ctx : HandlerCtx} {obj : InvoiceEvent} {start stop start' : DateTime}
    (h : Sound s account) (hrow : OnItsRow s sub) (hown : Own s start' sub.incurs)
    (hownStart : Own s start sub.incurs) (hunbilled : Unbilled s start)
    (hclose : s.st.closePaid orgId sub obj ctx start stop = .ok st) (stop' : DateTime) :
    Sound (s.store (st.renew orgId ctx start' stop') sub.incurs)
      (s.note orgId account (some (.reported start))) := by
  obtain ⟨hev₁, hbooks₁, hsub₁, hsec₁⟩ := closePaid_spec h.books hownStart hunbilled hclose
  have hcur₁ := h.current.note hsub₁ sub.incurs
  obtain ⟨hev₂, hbooks₂, hcur₂, hstored₂⟩ := @renew_spec _ orgId st sub ∅ ctx _
    stop' hbooks₁ hcur₁ (hsub₁.trans hrow) (own_noteOrigin _ hown)
  have hsec₂ := hsec₁.evolves (o := sub.incurs) hbooks₁.noted hev₂ (Set.notMem_empty _)
  rw [noteOrigin_noteOrigin hev₂.kept] at hbooks₂ hcur₂ hsec₂
  have hev : Evolves {start} s.st.db (st.renew orgId ctx start' stop').db :=
    hev₁.trans ⟨fun t _ => hev₂.rows t (Set.notMem_empty t), hev₂.kept, hev₂.snapshots⟩
  refine h.store hev hbooks₂ hcur₂ ?_ ?_ ?_ fun t ht => Function.update_of_ne ht ..
  · rintro t rfl -
    exact hsec₂
  · intro t o' x _ _ hold hne
    exact absurd (hstored₂.trans ((storedId_congr hsub₁).trans hold)) hne
  · rintro t rfl
    rw [note, Function.update_self]
    refine (h.accounts t).report (hev.snapshots t) (fun counts hread => ?_) hsec₂
    obtain ⟨u, hu, hcount⟩ := sync_of_reads hread stop
    obtain ⟨u₁, hu₁, hcount₁⟩ := closePaid_usage hclose hu
    obtain ⟨u₂, hu₂, hcount₂⟩ := hev₂.count (Set.notMem_empty t) hu₁
    exact ⟨u₂, hu₂, hcount₂.trans (hcount₁.trans hcount)⟩

theorem sound_commitPaid {ctx : HandlerCtx} (h : Sound s account)
    (hturn : InTurn ⟨s, account⟩ (.commitPaid w ctx))
    (hs : s.commitPaid orgId w ctx = some s') :
    Sound s' (s.note orgId account (s.entry orgId (.commitPaid w ctx))) := by
  unfold commitPaid at hs
  split at hs
  next sub obj live htask =>
    have hentry : s.entry orgId (.commitPaid w ctx) = none := by simp only [entry, htask]
    rw [hentry]
    split at hs
    · cases hs
    · -- the invoice is no renewal
      cases hs
      obtain ⟨hrow, hown⟩ := hturn.1 sub obj live htask
      exact (h.renew hrow hown _).goto_plain rfl
  next sub obj live start stop closed htask =>
    cases hs
    obtain ⟨hrow, hown, hopen⟩ := hturn.2 sub obj live start stop closed htask
    cases closed with
    | true =>
      -- an already billed record is not closed again
      have hentry : s.entry orgId (.commitPaid w ctx) = none := by simp only [entry, htask]
      rw [hentry]
      exact (h.renew hrow hown _).goto_plain rfl
    | false =>
      obtain ⟨hownStart, hunbilled⟩ := hopen rfl
      simp only [entry, htask, Bool.false_eq_true, if_false]
      cases hclose : s.st.closePaid orgId sub obj ctx start stop with
      | error e => exact h.fail w
      | ok st => exact (h.closePaid hrow hown hownStart hunbilled hclose _).goto_plain rfl
  · cases hs

end commits

/-! ## Reads and locks -/

theorem sound_acquire (h : Sound s account) (hs : s.acquire w = some s') : Sound s' account := by
  unfold acquire at hs
  split at hs
  · cases hs
    exact (h.withLock (some w)).goto_plain rfl
  · cases hs

theorem sound_readSubscription (h : Sound s account) (hs : s.readSubscription w = some s') :
    Sound s' account := by
  unfold readSubscription at hs
  split at hs
  · split at hs
    · cases hs
      exact h.goto_plain rfl
    · cases hs
      exact h.goto_plain rfl
  · cases hs

theorem sound_release (h : Sound s account) (hs : s.release w = some s') : Sound s' account := by
  unfold release at hs
  split at hs
  · cases hs
    exact h.fail w
  next sub htask =>
    cases hs
    have hunlock : (s.unlock w).st = s.st ∧ (s.unlock w).origin = s.origin := by
      unfold OverageRun.unlock
      split <;> exact ⟨rfl, rfl⟩
    refine (h.unlock w).goto ?_ (fun _ => nofun)
    rintro sub' (hd | hd) hpaid hcust
    · cases hd
    · cases hd
      rw [hunlock.1, hunlock.2]
      exact h.gap _ ⟨w, sub, Or.inl htask, hpaid, hcust, rfl⟩
  · cases hs

theorem sound_readSync (h : Sound s account) (hs : s.readSync w = some s') : Sound s' account := by
  unfold readSync at hs
  split at hs
  · cases hs
    exact h.goto_plain rfl
  · cases hs

theorem sound_readPaid {obj : InvoiceEvent} {live : Int × Int} (h : Sound s account)
    (hs : s.readPaid w obj live = some s') : Sound s' account := by
  unfold readPaid at hs
  split at hs
  · split at hs
    · cases hs
      exact h
    · cases hs
      exact h.goto_plain rfl
  · cases hs

theorem sound_lockPaid (h : Sound s account) (hs : s.lockPaid w = some s') : Sound s' account := by
  unfold lockPaid at hs
  split at hs
  · split at hs
    · split at hs
      · cases hs
        exact (h.withLock (some w)).goto_plain rfl
      · cases hs
        exact h.goto_plain rfl
    · cases hs
  · cases hs

theorem sound_readUsage (h : Sound s account) (hs : s.readUsage w = some s') :
    Sound s' account := by
  unfold readUsage at hs
  split at hs
  · split at hs
    · cases hs
      exact h.fail w
    · split at hs
      · split at hs
        · cases hs
          exact h.fail w
        · cases hs
          exact h.goto_plain rfl
      · cases hs
        exact h.goto_plain rfl
  · cases hs

theorem sound_readDeleted {sid : String} (h : Sound s account) (hs : s.readDeleted w sid = some s') :
    Sound s' account := by
  unfold readDeleted at hs
  split at hs
  · split at hs
    · cases hs
      exact h
    · cases hs
      exact h.goto_plain rfl
  · cases hs

/-! ## Runs -/

/-- **One step in turn keeps the invariant.** -/
theorem sound_step {a : OverageAct} (h : Sound s account) (hturn : InTurn ⟨s, account⟩ a)
    (hs : s.step orgId a = some s') :
    Sound s' (s.note orgId account (s.entry orgId a)) := by
  cases a with
  | createOrganization plan now =>
    simp only [step] at hs
    split at hs
    · cases hs
      exact h
    next st hok =>
      cases hs
      obtain ⟨hev, hbooks, hcur, hnone⟩ := createOrganization_spec ∅ h.books hok
      refine h.store_empty hev hbooks hcur ?_
      intro t o' x _ _ hold
      rw [hnone] at hold
      cases hold
  | traffic redis cache =>
    cases hs
    exact ⟨h.books, h.current, h.closed, h.gap, h.unskipped, h.accounts⟩
  | deliver id ws =>
    cases hs
    have hbooks := h.books.deliver id ws
    have hsub : (s.st.db.deliver id ws).subscription = s.st.db.subscription :=
      (deliver_settlement s.st.db id ws).2
    -- a delivery creates no record, so the note of its origin changes nothing
    have hnote : noteOrigin ⟨none, .hobby⟩ (s.st.db.deliver id ws) s.origin = s.origin :=
      noteOrigin_eq_self hbooks.noted
    have hstore : Sound (s.store { s.st with db := s.st.db.deliver id ws } ⟨none, .hobby⟩)
        account := by
      refine h.store_empty (evolves_deliver ∅ _ id ws) (hnote.symm ▸ hbooks)
        (h.current.note hsub _) ?_
      intro t o' x _ _ hold hne
      exact absurd ((storedId_congr hsub).trans hold) hne
    unfold OverageRun.store at hstore
    rw [hnote] at hstore
    exact hstore
  | expireLock =>
    cases hs
    exact h.withLock none
  | acquire w => exact sound_acquire h hs
  | readSubscription w => exact sound_readSubscription h hs
  | commitReport w ctx => exact sound_commitReport h hturn hs
  | release w => exact sound_release h hs
  | readSync w => exact sound_readSync h hs
  | commitSync w => exact sound_commitSync h hturn hs
  | checkout obj ctx =>
    cases hs
    exact sound_checkout h hturn
  | readPaid w obj live => exact sound_readPaid h hs
  | lockPaid w => exact sound_lockPaid h hs
  | readUsage w => exact sound_readUsage h hs
  | commitPaid w ctx => exact sound_commitPaid h hturn hs
  | readDeleted w sid => exact sound_readDeleted h hs
  | reportDeleted w ctx => exact sound_reportDeleted h hturn hs
  | commitDeleted w ctx => exact sound_commitDeleted h hturn hs
  | crash w =>
    cases hs
    exact h.goto_plain rfl

theorem sound_of_reach {s : OverageHistory}
    (hreach : GuardedRun.Reach (OverageHistory.step orgId) InTurn .initial s) :
    Sound s.run s.account := by
  refine hreach.invariant (I := fun s => Sound s.run s.account) sound_initial ?_
  intro s a s' h hturn hs
  obtain ⟨run, hrun, rfl⟩ := Option.map_eq_some_iff.mp hs
  exact sound_step h hturn hrun

/-- **Closed records are secured.**  In every state of every run whose steps are in turn,
each counter of a pay-as-you-go record that is billed, or whose Stripe subscription the
stored row no longer names, is at most the allowance or the largest snapshot reserved
for the record. -/
theorem closed_records_secured {orgId : UUID} {s : OverageHistory}
    (hreach : GuardedRun.Reach (OverageHistory.step orgId) InTurn .initial s) :
    NoForfeit s.run := (sound_of_reach hreach).closed

/-! ## Runs in and out of turn -/

/-- A checkout of Pro for a period of thirty days. -/
def proCheckout (subscriptionId : String) (periodStart : Int) : OverageAct :=
  .checkout ⟨.pro, some "cus", subscriptionId, periodStart, periodStart + 2592000⟩
    ⟨true, true, 0, "rep", []⟩

/-- Six thousand traces are counted, a thousand above the allowance of Pro. -/
def heavyUse : OverageAct :=
  .traffic ⟨fun _ c => if c = .traces then some 6000 else none, fun _ => none⟩ none

/-- A handler called half a day into the period. -/
def atNoon : HandlerCtx := ⟨true, true, DateTime.hours 12, "rep", []⟩

/-- The state after an action that is enabled. -/
def after (s : OverageHistory) (a : OverageAct) : OverageHistory :=
  (OverageHistory.step "org" s a).getD s

theorem reach_after {s : OverageHistory} {a : OverageAct}
    (h : GuardedRun.Reach (OverageHistory.step "org") InTurn .initial s) (hturn : InTurn s a)
    (hs : (OverageHistory.step "org" s a).isSome = true) :
    GuardedRun.Reach (OverageHistory.step "org") InTurn .initial (after s a) := by
  obtain ⟨s', hs'⟩ := Option.isSome_iff_exists.mp hs
  have hafter : after s a = s' := by rw [after, hs', Option.getD_some]
  exact hafter ▸ h.step hturn hs'

/-- The six thousand traces of a subscription are reported, and a sync reads them again. -/
def syncingUse : OverageHistory :=
  [proCheckout "sub" 0, heavyUse, .acquire 0, .readSubscription 0, .commitReport 0 atNoon,
    .release 0, .readSync 0].foldl after .initial

/-- A checkout replaces the subscription, and the new one is reported as it is deleted. -/
def deletedUse : OverageHistory :=
  [.commitSync 0, proCheckout "sub_2" 86400, .readDeleted 1 "sub_2", .reportDeleted 1 atNoon,
    .release 1].foldl after syncingUse

/-- The row the checkout of `sub` leaves. -/
def proRow : Subscription :=
  ⟨"org", .pro, .active, some "cus", some "sub", 0, DateTime.days 30, none⟩

/-- The row the checkout of `sub_2` leaves. -/
def secondRow : Subscription :=
  { proRow with
    stripeSubscriptionId := some "sub_2"
    currentPeriodStart := DateTime.days 1
    currentPeriodEnd := DateTime.days 31 }

/-- A record that is stored unbilled is open for syncs. -/
theorem unbilled_of_usage (h : (s.st.db.usage t).map (fun u => u.billed) = some false) :
    Unbilled s t := by
  intro u hu
  rw [hu] at h
  exact Option.some.inj h

/-- A period without a record has no origin. -/
theorem origin_of_usage {s : OverageHistory}
    (h : GuardedRun.Reach (OverageHistory.step orgId) InTurn .initial s)
    (hu : s.run.st.db.usage t = none) : s.run.origin t = none := by
  have hnoted := (sound_of_reach h).books.noted t
  rw [hu] at hnoted
  exact Option.isSome_eq_false_iff.mp hnoted.symm |> Option.isNone_iff_eq_none.mp

theorem reach_syncingUse :
    GuardedRun.Reach (OverageHistory.step "org") InTurn .initial syncingUse := by
  have h₁ := reach_after (a := proCheckout "sub" 0) .initial
    ⟨Or.inl rfl, Or.inr fun t o x ho => absurd ho.symm (Option.some_ne_none o)⟩ rfl
  have h₂ := reach_after (a := heavyUse) h₁ trivial rfl
  have h₃ := reach_after (a := .acquire 0) h₂ trivial rfl
  have h₄ := reach_after (a := .readSubscription 0) h₃ trivial rfl
  have h₅ := reach_after (a := .commitReport 0 atNoon) h₄ (fun sub hsub => by
    obtain rfl : proRow = sub := Task.reportRead.inj hsub
    exact ⟨rfl, unbilled_of_usage rfl, fun hcust => absurd hcust (Option.some_ne_none _)⟩) rfl
  have h₆ := reach_after (a := .release 0) h₅ trivial rfl
  exact reach_after (a := .readSync 0) h₆ trivial rfl

/-- Only the reporter has run, and it is done. -/
theorem noGap_syncingUse : NoGap syncingUse.run 0 := by
  intro v sub hv
  by_cases hreporter : v = 0
  · subst hreporter
    rcases hv with hv | hv
    · exact Task.noConfusion hv
    · exact Task.noConfusion hv
  · have hidle : syncingUse.run.task v = .idle := by
      iterate 5 refine (Function.update_of_ne hreporter _ _).trans ?_
      rfl
    rw [hidle] at hv
    rcases hv with hv | hv
    · cases hv
    · cases hv

theorem reach_commitSync :
    GuardedRun.Reach (OverageHistory.step "org") InTurn .initial
      (after syncingUse (.commitSync 0)) := by
  refine reach_after reach_syncingUse (fun sub hsub => ?_) rfl
  obtain rfl : proRow = sub := Task.syncRead.inj hsub
  exact ⟨rfl, unbilled_of_usage rfl, noGap_syncingUse⟩

/-- The sync after the report has read what the report had. -/
theorem within_commitSync (t : DateTime) :
    ((after syncingUse (.commitSync 0)).account t).Within .pro := by
  by_cases ht : t = 0
  · subst ht
    have hsince : ((after syncingUse (.commitSync 0)).account 0).since =
        [((after syncingUse (.commitSync 0)).account 0).reported] := rfl
    intro counts hmem c
    rw [hsince, List.mem_singleton] at hmem
    exact hmem ▸ le_max_right _ _
  · have hempty : (after syncingUse (.commitSync 0)).account t = .empty :=
      (Function.update_of_ne ht _ _).trans (Function.update_of_ne ht _ _)
    rw [hempty]
    exact fun counts hmem => absurd hmem List.not_mem_nil

theorem plan_commitSync (ho : (after syncingUse (.commitSync 0)).run.origin t = some o) :
    o.plan = .pro := by
  by_cases ht : t = 0
  · subst ht
    obtain rfl : ⟨some "sub", .pro⟩ = o := Option.some.inj ho
    rfl
  · have hnone : (after syncingUse (.commitSync 0)).run.st.db.usage t = none := by
      iterate 3 refine (Function.update_of_ne ht _ _).trans ?_
      rfl
    rw [origin_of_usage reach_commitSync hnone] at ho
    cases ho

theorem reach_deletedUse :
    GuardedRun.Reach (OverageHistory.step "org") InTurn .initial deletedUse := by
  have h₁ := reach_after (a := proCheckout "sub_2" 86400) reach_commitSync
    ⟨Or.inl rfl, Or.inr fun t o x ho _ _ _ _ => plan_commitSync ho ▸ within_commitSync t⟩ rfl
  have h₂ := reach_after (a := .readDeleted 1 "sub_2") h₁ trivial rfl
  have h₃ := reach_after (a := .reportDeleted 1 atNoon) h₂ (fun sub hsub _ => by
    obtain rfl : secondRow = sub := Task.deleting.inj hsub
    exact ⟨rfl, rfl, unbilled_of_usage rfl⟩) rfl
  exact reach_after (a := .release 1) h₃ trivial rfl

theorem reach_replacedDeletion : GuardedRun.Reach (OverageHistory.step "org") InTurn .initial
    (after deletedUse (.commitDeleted 1 atNoon)) := by
  refine reach_after reach_deletedUse (fun sub hsub => ?_) rfl
  obtain rfl : secondRow = sub := Task.finalizing.inj hsub
  refine ⟨rfl, fun t o x ho hx hid hne _ => ?_⟩
  have ht : t ≠ DateTime.days 1 := fun ht => hne (congrArg some ht)
  -- the other record is of the first subscription
  exfalso
  by_cases ht₀ : t = 0
  · subst ht₀
    obtain rfl : ⟨some "sub", .pro⟩ = o := Option.some.inj ho
    exact absurd (hx.trans hid.symm) (by decide)
  · have hnone : deletedUse.run.st.db.usage t = none := by
      refine (Function.update_of_ne ht _ _).trans ((Function.update_of_ne ht _ _).trans ?_)
      iterate 3 refine (Function.update_of_ne ht₀ _ _).trans ?_
      rfl
    rw [origin_of_usage reach_deletedUse hnone] at ho
    cases ho

/-- The records of the checkout and of the deletion are closed with six thousand traces each,
and both are secured. -/
theorem closed_records_secured_replaced :
    NoForfeit (after deletedUse (.commitDeleted 1 atNoon)).run ∧
      [0, DateTime.days 1].map (fun t =>
        ((after deletedUse (.commitDeleted 1 atNoon)).run.st.db.usage t).map fun u =>
          (u.billed, u.count .traces)) = [some (false, 6000), some (true, 6000)] :=
  ⟨closed_records_secured reach_replacedDeletion, by decide +kernel⟩

/-- What the runs below end in: whether the record of the first checkout is billed, its
traces, its largest snapshot, what it was incurred under, and the stored subscription. -/
def forfeitView (s : OverageRun) : Option (Bool × Int × Int × Option Incurred × Option String) :=
  (s.st.db.usage 0).map fun u => (u.billed, u.count .traces,
    s.st.db.largestSnapshot 0 .traces, s.origin 0, storedId s.st.db)

/-- A closed record of six thousand traces and no report is forfeited. -/
theorem not_noForfeit_of_view {billed : Bool} {stored : Option String}
    (hview : forfeitView s = some (billed, 6000, 0, some ⟨some "sub", .pro⟩, stored))
    (hclosed : billed = true ∨ stored ≠ some "sub") : ¬ NoForfeit s := by
  intro h
  obtain ⟨u, hu, huv⟩ := Option.map_eq_some_iff.mp hview
  simp only [Prod.mk.injEq] at huv
  obtain ⟨hbilled, hcount, hsnap, horigin, hstored⟩ := huv
  have hsec : Secured s.st.db s.origin 0 := by
    refine h 0 (hclosed.imp (fun hb => ⟨u, hu, hbilled.trans hb⟩) fun hne => ?_)
    exact ⟨_, "sub", horigin, rfl, hstored ▸ hne⟩
  have hle := hsec u _ hu horigin rfl .traces
  have hbase : SubscriptionPlan.base .pro .traces = 5000 := rfl
  rw [hcount, hsnap, hbase] at hle
  omega

/-- **Two runs that forfeit overage.**  A deletion that finds the lock taken by the
reporter skips its report and still marks the record billed; and a checkout replaces a
subscription with a thousand traces synced above the allowance and never reported. -/
theorem overage_forfeited :
    (∃ s, GuardedRun.run (fun s a => s.step "org" a) initial
        [proCheckout "sub" 0, heavyUse, .acquire 0, .readDeleted 1 "sub",
          .reportDeleted 1 atNoon, .commitDeleted 1 atNoon] = some s ∧
      GuardedRun.Reach (fun s a => s.step "org" a) GuardedRun.Always initial s ∧
      ¬ NoForfeit s) ∧
    ∃ s, GuardedRun.run (fun s a => s.step "org" a) initial
        [proCheckout "sub" 0, heavyUse, .readSync 0, .commitSync 0,
          proCheckout "sub_2" 86400] = some s ∧
      GuardedRun.Reach (fun s a => s.step "org" a) GuardedRun.Always initial s ∧
      ¬ NoForfeit s := by
  constructor
  · have hview : (GuardedRun.run (fun s a => s.step "org" a) initial
        [proCheckout "sub" 0, heavyUse, .acquire 0, .readDeleted 1 "sub",
          .reportDeleted 1 atNoon, .commitDeleted 1 atNoon]).bind forfeitView =
        some (true, 6000, 0, some ⟨some "sub", .pro⟩, none) := by
      decide +kernel
    obtain ⟨s, hrun, hs⟩ := Option.bind_eq_some_iff.mp hview
    exact ⟨s, hrun, GuardedRun.reach_of_run hrun, not_noForfeit_of_view hs (Or.inl rfl)⟩
  · have hview : (GuardedRun.run (fun s a => s.step "org" a) initial
        [proCheckout "sub" 0, heavyUse, .readSync 0, .commitSync 0,
          proCheckout "sub_2" 86400]).bind forfeitView =
        some (false, 6000, 0, some ⟨some "sub", .pro⟩, some "sub_2") := by
      decide +kernel
    obtain ⟨s, hrun, hs⟩ := Option.bind_eq_some_iff.mp hview
    exact ⟨s, hrun, GuardedRun.reach_of_run hrun,
      not_noForfeit_of_view hs (Or.inr (by decide))⟩

end OverageRun
end PandaProbe
