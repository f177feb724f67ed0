import PandaProbe.Settlement

/-! # Renewal events in any order

One paid subscription renews through consecutive periods.  Their `invoice.created`,
`invoice.paid` and `customer.subscription.updated` events arrive in any order and any
number of times, with usage syncs in between; a handler may also fail and leave
everything as it was.

What the events amount to is a small book (`RenewalBook`): which invoice closed each
period first, and the largest period seen.  `Agrees` says that the rows of the
organization are what the book says; one event keeps it (`agrees_step`), and the book of a
whole run is read off its events (`book_closedBy`).
-/
namespace PandaProbe

/-- A paid subscription and the bounds of its consecutive periods, as Unix timestamps. -/
structure RenewalSchedule where
  orgId : UUID
  subscriptionId : String
  bound : Nat → Int
  subscriptionId_ne : subscriptionId ≠ ""
  bound_pos : 0 < bound 0
  bound_lt : StrictMono bound

namespace RenewalSchedule
variable (σ : RenewalSchedule)

/-- The start of the period with a number. -/
def start (i : Nat) : DateTime := DateTime.fromTimestamp (σ.bound i)

/-- The end of the period with a number, where the next one starts. -/
def stop (i : Nat) : DateTime := DateTime.fromTimestamp (σ.bound (i + 1))

theorem start_le_start {i j : Nat} : σ.start i ≤ σ.start j ↔ i ≤ j := by
  simp only [start, DateTime.fromTimestamp, DateTime.seconds]
  rw [mul_le_mul_iff_of_pos_right (by norm_num)]
  exact σ.bound_lt.le_iff_le

theorem stop_le_stop {i j : Nat} : σ.stop i ≤ σ.stop j ↔ i ≤ j := by
  have h := @start_le_start σ (i + 1) (j + 1)
  simpa [start, stop] using h

theorem start_injective {i j : Nat} (h : σ.start i = σ.start j) : i = j :=
  le_antisymm (σ.start_le_start.mp h.le) (σ.start_le_start.mp h.ge)

theorem bound_pos' (i : Nat) : 0 < σ.bound i :=
  lt_of_lt_of_le σ.bound_pos (σ.bound_lt.monotone (Nat.zero_le i))

/-- The renewal invoice that closes a period. -/
def invoice (i : Nat) (id : String) : InvoiceEvent :=
  ⟨id, some σ.subscriptionId, some renewalBillingReason, some (σ.bound i), some (σ.bound (i + 1))⟩

theorem invoicePeriod_invoice (i : Nat) (id : String) :
    invoicePeriod (σ.invoice i id) = .ok (σ.start i, σ.stop i) := by
  have hlt : σ.bound i < σ.bound (i + 1) := σ.bound_lt (Nat.lt_succ_self i)
  simp [invoicePeriod, invoice, σ.bound_pos' i, hlt, start, stop]

end RenewalSchedule

/-- An event of the subscription, or something that happens in between.  `live` is the
period Stripe's subscription is in when it is retrieved; a sync writes the counters of the
period it read from the subscription row, possibly a while ago. -/
inductive RenewalEvent
  | invoiceCreated (i : Nat) (invoiceId : String) (ctx : HandlerCtx)
  | invoicePaid (i : Nat) (invoiceId : String) (live : Nat) (ctx : HandlerCtx)
  | subscriptionUpdated (k : Nat) (status : Option String) (plan : Option SubscriptionPlan)
      (canceledAt : Option Int) (ctx : HandlerCtx)
  | syncUsage (k : Option Nat)
  | traffic (redis : UsageStore) (cache : Option Subscription)

/-- **What renewal is about**: the invoice that closed each period, and the period the
subscription is in. -/
structure RenewalBook where
  closedBy : Nat → Option String
  current : Nat

/-- The organization's state, with the `invoice.paid` runs that succeeded (period and
invoice, in order) and the periods seen, latest first: the one at the start, those of update
events, and those such runs retrieved. -/
structure RenewalRun where
  state : UsageState
  paid : List (Nat × String)
  seen : List Nat

namespace RenewalRun
variable (σ : RenewalSchedule)

/-- One event.  A handler that raises leaves the state. -/
def step (r : RenewalRun) : RenewalEvent → RenewalRun
  | .invoiceCreated i invoiceId ctx =>
    match r.state.handleInvoiceCreated σ.orgId (σ.invoice i invoiceId) ctx with
    | .error _ => r
    | .ok st => { r with state := st }
  | .invoicePaid i invoiceId live ctx =>
    match r.state.handleInvoicePaid σ.orgId (σ.invoice i invoiceId)
        (σ.bound live, σ.bound (live + 1)) ctx with
    | .error _ => r
    | .ok st => ⟨st, r.paid ++ [(i, invoiceId)], live :: r.seen⟩
  | .subscriptionUpdated k status plan canceledAt ctx =>
    { r with
      state := r.state.handleSubscriptionUpdated
        ⟨σ.subscriptionId, status, plan, canceledAt, some (σ.bound k, σ.bound (k + 1))⟩ ctx
      seen := k :: r.seen }
  | .syncUsage k =>
    { r with state := r.state.syncToDatabase σ.orgId (k.map (fun k => (σ.start k, σ.stop k))) }
  | .traffic redis cache => { r with state := { r.state with redis := redis, cache := cache } }

/-- A whole run. -/
def run (r : RenewalRun) (es : List RenewalEvent) : RenewalRun := es.foldl (step σ) r

/-- The first invoice of a list that names a period. -/
def firstInvoice (paid : List (Nat × String)) (i : Nat) : Option String :=
  (paid.find? (fun x => x.1 = i)).map Prod.snd

/-- The largest of the periods seen. -/
def largest (seen : List Nat) : Nat := seen.foldr max 0

theorem largest_isGreatest {seen : List Nat} (h : seen ≠ []) :
    largest seen ∈ seen ∧ ∀ k ∈ seen, k ≤ largest seen := by
  induction seen with
  | nil => exact absurd rfl h
  | cons k rest ih =>
    change max k (largest rest) ∈ k :: rest ∧ ∀ j ∈ k :: rest, j ≤ max k (largest rest)
    cases rest with
    | nil => simp [largest]
    | cons k' rest' =>
      obtain ⟨hmem, hle⟩ := ih (by simp)
      refine ⟨?_, ?_⟩
      · rcases max_choice k (largest (k' :: rest')) with he | he
        · rw [he]; exact List.mem_cons_self
        · rw [he]; exact List.mem_cons_of_mem _ hmem
      · intro j hj
        rcases List.mem_cons.mp hj with rfl | hj
        · exact le_max_left _ _
        · exact le_trans (hle j hj) (le_max_right _ _)

/-- The book of a run. -/
def book (r : RenewalRun) : RenewalBook := ⟨firstInvoice r.paid, largest r.seen⟩

theorem firstInvoice_concat (paid : List (Nat × String)) (i j : Nat) (id : String) :
    firstInvoice (paid ++ [(i, id)]) j =
      (firstInvoice paid j <|> if i = j then some id else none) := by
  unfold firstInvoice
  rw [List.find?_append]
  cases paid.find? (fun x => x.1 = j) with
  | some x => rfl
  | none => by_cases h : i = j <;> simp [h]

/-- The organization's rows are what a book says: the subscription is in the book's
period; a closed record is of a period the book has closed, by that invoice; and every
period the book has closed has such a record. -/
structure Agrees (db : BillingDb) (b : RenewalBook) : Prop where
  current : ∃ s, db.subscription = some s ∧ s.stripeSubscriptionId = some σ.subscriptionId ∧
    s.currentPeriodStart = σ.start b.current ∧ s.currentPeriodEnd = σ.stop b.current
  closed : ∀ t e inv, db.settlement t = some (e, true, inv) →
    ∃ i, t = σ.start i ∧ e = σ.stop i ∧ b.closedBy i = inv ∧ inv ≠ none
  booked : ∀ i, b.closedBy i ≠ none →
    db.settlement (σ.start i) = some (σ.stop i, true, b.closedBy i)

variable {σ}

/-- Opening records closes nothing. -/
theorem Agrees.opens {db db' : BillingDb} {b : RenewalBook} (h : Agrees σ db b)
    (hopen : db.Opens db') (hsub : db'.subscription = db.subscription) : Agrees σ db' b where
  current := hsub ▸ h.current
  closed t e inv hb := h.closed t e inv (hopen.of_billed hb)
  booked i hi := hopen.of_some (h.booked i hi)

/-- The guarded update moves the row to the later of two periods. -/
theorem advance_period {s : Subscription} {j : Nat} (k : Nat)
    (hstart : s.currentPeriodStart = σ.start j) (hstop : s.currentPeriodEnd = σ.stop j) :
    (BillingDb.Subscription.advance (σ.start k) (σ.stop k) s).currentPeriodStart =
        σ.start (max k j) ∧
      (BillingDb.Subscription.advance (σ.start k) (σ.stop k) s).currentPeriodEnd =
        σ.stop (max k j) ∧
      (BillingDb.Subscription.advance (σ.start k) (σ.stop k) s).stripeSubscriptionId =
        s.stripeSubscriptionId := by
  unfold BillingDb.Subscription.advance
  by_cases hjk : j ≤ k
  · rw [if_pos ⟨hstart ▸ σ.start_le_start.mpr hjk, hstop ▸ σ.stop_le_stop.mpr hjk⟩,
      max_eq_left hjk]
    exact ⟨rfl, rfl, rfl⟩
  · rw [if_neg (fun h => hjk (σ.start_le_start.mp (hstart ▸ h.1))), max_eq_right (by omega)]
    exact ⟨hstart, hstop, rfl⟩

/-- **Opening records and moving the row** to the later of its period and another one. -/
theorem Agrees.advance {db db' : BillingDb} {b : RenewalBook} {k : Nat} (h : Agrees σ db b)
    (hopen : db.Opens db') {f : Subscription → Subscription}
    (hf : ∀ s, (f s).stripeSubscriptionId = s.stripeSubscriptionId ∧
      (f s).currentPeriodStart = s.currentPeriodStart ∧
      (f s).currentPeriodEnd = s.currentPeriodEnd)
    (hsub : db'.subscription =
      (db.subscription.map (BillingDb.Subscription.advance (σ.start k) (σ.stop k))).map f) :
    Agrees σ db' { b with current := max k b.current } where
  current := by
    obtain ⟨s, hs, hid, hstart, hstop⟩ := h.current
    obtain ⟨ha, hb, hc⟩ := advance_period k hstart hstop
    refine ⟨_, by rw [hsub, hs]; rfl, ?_, ?_, ?_⟩
    · rw [(hf _).1, hc, hid]
    · rw [(hf _).2.1, ha]
    · rw [(hf _).2.2, hb]
  closed t e inv hbill := h.closed t e inv (hopen.of_billed hbill)
  booked i hi := hopen.of_some (h.booked i hi)

/-- **Closing an open period** of the book. -/
theorem Agrees.close {db : BillingDb} {b : RenewalBook} {i : Nat} {id : String}
    (h : Agrees σ db b) (hfree : b.closedBy i = none) {o : Bool} {x : Option String}
    (hopen : db.settlement (σ.start i) = some (σ.stop i, o, x)) :
    Agrees σ (db.markBilled (σ.start i) (some id))
      { b with closedBy := Function.update b.closedBy i (some id) } where
  current := by
    rw [BillingDb.markBilled_subscription]
    exact h.current
  closed t e inv hb := by
    rw [BillingDb.markBilled_settlement] at hb
    by_cases ht : t = σ.start i
    · rw [if_pos ht, hopen] at hb
      simp only [Option.map_some, Option.some.injEq, Prod.mk.injEq, true_and] at hb
      obtain ⟨rfl, rfl⟩ := hb
      exact ⟨i, ht, rfl, Function.update_self .., by simp⟩
    · rw [if_neg ht] at hb
      obtain ⟨j, hj, he, hinv, hne⟩ := h.closed t e inv hb
      -- two periods with one start are one
      have hji : j ≠ i := by
        rintro rfl
        exact ht hj
      exact ⟨j, hj, he, (Function.update_of_ne hji ..).trans hinv, hne⟩
  booked j hj := by
    rw [BillingDb.markBilled_settlement]
    by_cases hji : j = i
    · subst hji
      simp [hopen]
    · rw [if_neg (fun he => hji (σ.start_injective he))]
      have hother : Function.update b.closedBy i (some id) j = b.closedBy j :=
        Function.update_of_ne hji ..
      simp only [hother] at hj ⊢
      exact h.booked j hj

/-- The handlers find the subscription. -/
theorem Agrees.lookup {db : BillingDb} {b : RenewalBook} (h : Agrees σ db b) (i : Nat)
    (id : String) : ∃ s,
      (truthy (σ.invoice i id).subscriptionId).bind db.getSubscriptionByStripeSubscription =
        some s := by
  obtain ⟨s, hs, hid, -⟩ := h.current
  refine ⟨s, ?_⟩
  have htruthy : truthy (σ.invoice i id).subscriptionId = some σ.subscriptionId := by
    simp [truthy, RenewalSchedule.invoice, σ.subscriptionId_ne]
  rw [htruthy, Option.bind_some, BillingDb.getSubscriptionByStripeSubscription_eq_some]
  exact ⟨hs, hid⟩

/-- `invoice.created` opens at most a record. -/
theorem handleInvoiceCreated_frame {st st' : UsageState} {i : Nat} {id : String}
    {ctx : HandlerCtx} (h : st.handleInvoiceCreated σ.orgId (σ.invoice i id) ctx = .ok st') :
    st.db.Opens st'.db ∧ st'.db.subscription = st.db.subscription := by
  unfold UsageState.handleInvoiceCreated at h
  split at h
  · cases h; exact ⟨.refl _, rfl⟩
  · split at h
    · cases h; exact ⟨.refl _, rfl⟩
    · split at h
      · cases h; exact ⟨.refl _, rfl⟩
      · split at h
        · cases h
        · split at h
          · cases h
          next st₁ usage hsync =>
            obtain ⟨hopen, hsub, -⟩ :=
              UsageState.syncInvoicePeriod_spec (σ.invoicePeriod_invoice i id) hsync
            split at h
            · cases h; exact ⟨hopen, hsub⟩
            · split at h
              · cases h
              next hreport =>
                cases h
                obtain ⟨hset, hsub'⟩ := BillingDb.reportOveragesToStripe_frame hreport
                exact ⟨hopen.trans (.of_eq hset), hsub'.trans hsub⟩

/-- **What a successful `invoice.paid` run does** for a subscription it finds: it has the
record of exactly the period its invoice names, closes it unless it is closed, and renews. -/
theorem handleInvoicePaid_ok {st st' : UsageState} {i : Nat} {id : String}
    {live : Int × Int} {ctx : HandlerCtx} {s : Subscription}
    (hs : (truthy (σ.invoice i id).subscriptionId).bind
      st.db.getSubscriptionByStripeSubscription = some s)
    (h : st.handleInvoicePaid σ.orgId (σ.invoice i id) live ctx = .ok st') :
    ∃ (st₁ : UsageState) (usage : UsageRecord),
      st.syncInvoicePeriod σ.orgId (σ.invoice i id) = .ok (st₁, usage) ∧
      ((usage.billed = true ∧ st' = st₁.renew σ.orgId ctx (DateTime.fromTimestamp live.1)
          (DateTime.fromTimestamp live.2)) ∨
       (usage.billed = false ∧ ∃ db : BillingDb, db.usage = st₁.db.usage ∧
          db.subscription = st₁.db.subscription ∧
          st' = UsageState.renew σ.orgId
            { st₁ with db := db.markBilled usage.periodStart (some id) } ctx
            (DateTime.fromTimestamp live.1) (DateTime.fromTimestamp live.2))) := by
  unfold UsageState.handleInvoicePaid at h
  rw [hs] at h
  have hreason : (σ.invoice i id).billingReason = some renewalBillingReason := rfl
  simp only [if_pos hreason] at h
  split at h
  · cases h
  · split at h
    · cases h
    next st₁ usage hsync =>
      refine ⟨st₁, usage, hsync, ?_⟩
      split at h
      -- a billed record is left as it is
      next hbill => cases h; exact Or.inl ⟨hbill, rfl⟩
      next hbill =>
        split at h
        · cases h
        next db hstage =>
          cases h
          obtain ⟨hu, hsub⟩ := BillingDb.stage_frame hstage
          exact Or.inr ⟨by simpa using hbill, db, hu, hsub, rfl⟩

theorem agrees_invoicePaid {r : RenewalRun} (h : Agrees σ r.state.db r.book) {i live : Nat}
    {id : String} {ctx : HandlerCtx} {st' : UsageState}
    (hok : r.state.handleInvoicePaid σ.orgId (σ.invoice i id) (σ.bound live, σ.bound (live + 1))
      ctx = .ok st') :
    Agrees σ st'.db ⟨firstInvoice (r.paid ++ [(i, id)]), largest (live :: r.seen)⟩ := by
  obtain ⟨s, hs⟩ := h.lookup i id
  obtain ⟨st₁, usage, hsync, hcase⟩ := handleInvoicePaid_ok hs hok
  obtain ⟨hopen, hsub, husage, hend⟩ :=
    UsageState.syncInvoicePeriod_spec (σ.invoicePeriod_invoice i id) hsync
  have h₁ : Agrees σ st₁.db r.book := h.opens hopen hsub
  have hset := BillingDb.settlement_eq_some husage
  rw [hend] at hset
  rcases hcase with ⟨hbill, rfl⟩ | ⟨hbill, db, hdbu, hdbs, rfl⟩
  · -- already closed: the book has an invoice for this period, and keeps it
    rw [hbill] at hset
    obtain ⟨j, hj, -, hinv, hne⟩ := h₁.closed _ _ _ hset
    have hij : j = i := (σ.start_injective hj).symm
    subst hij
    have hbook : firstInvoice (r.paid ++ [(j, id)]) = firstInvoice r.paid := by
      funext k
      rw [firstInvoice_concat]
      by_cases hk : j = k
      · subst hk
        obtain ⟨x, hx⟩ := Option.ne_none_iff_exists'.mp hne
        have hfirst : firstInvoice r.paid j = some x := hinv.trans hx
        simp [hfirst]
      · simp [hk]
    rw [hbook]
    obtain ⟨hopen', hsub'⟩ := @UsageState.renew_frame σ.orgId st₁ ctx (σ.start live) (σ.stop live)
    exact h₁.advance hopen' (f := fun s => { s with status := .active })
      (fun s => ⟨rfl, rfl, rfl⟩) hsub'
  · -- open: the book has no invoice for this period, and takes this one
    rw [hbill] at hset
    have hfree : firstInvoice r.paid i = none := by
      by_contra hne
      have hb := h₁.booked i hne
      rw [hset] at hb
      cases hb
    have hbook : firstInvoice (r.paid ++ [(i, id)]) =
        Function.update (firstInvoice r.paid) i (some id) := by
      funext k
      rw [firstInvoice_concat]
      by_cases hk : k = i
      · subst hk
        simp [hfree]
      · simp [hk, Ne.symm hk]
    have hkey : usage.periodStart = σ.start i := st₁.db.usage_keyed _ _ husage
    have h₂ : Agrees σ db r.book := h₁.opens (.of_eq (by funext t; simp [BillingDb.settlement, hdbu]))
      hdbs
    have hset₂ : db.settlement (σ.start i) = some (σ.stop i, false, usage.stripeInvoiceId) := by
      rw [← hset]
      simp [BillingDb.settlement, hdbu]
    have h₃ := @Agrees.close σ db r.book i id h₂ hfree _ _ hset₂
    rw [hbook, hkey]
    obtain ⟨hopen', hsub'⟩ := @UsageState.renew_frame σ.orgId
      { st₁ with db := db.markBilled (σ.start i) (some id) } ctx (σ.start live) (σ.stop live)
    exact h₃.advance hopen' (f := fun s => { s with status := .active })
      (fun s => ⟨rfl, rfl, rfl⟩) hsub'

theorem agrees_subscriptionUpdated {st : UsageState} {b : RenewalBook} (h : Agrees σ st.db b)
    (k : Nat) (status : Option String) (plan : Option SubscriptionPlan) (canceledAt : Option Int)
    (ctx : HandlerCtx) :
    Agrees σ (st.handleSubscriptionUpdated
      ⟨σ.subscriptionId, status, plan, canceledAt, some (σ.bound k, σ.bound (k + 1))⟩ ctx).db
      { b with current := max k b.current } := by
  obtain ⟨s, hs, hid, -⟩ := h.current
  have hlookup : st.db.getSubscriptionByStripeSubscription σ.subscriptionId = some s :=
    (BillingDb.getSubscriptionByStripeSubscription_eq_some _).mpr ⟨hs, hid⟩
  have hne : σ.bound k ≠ 0 ∧ σ.bound (k + 1) ≠ 0 :=
    ⟨(σ.bound_pos' k).ne', (σ.bound_pos' (k + 1)).ne'⟩
  simp only [UsageState.handleSubscriptionUpdated, hlookup, UsageState.eventPeriod, if_pos hne,
    UsageState.warmSubCache_db]
  refine h.advance (.of_eq rfl) (f := fun s => { s with
    status := UsageState.mapStatus status
    plan := plan.getD s.plan
    canceledAt := (canceledAt.filter (· ≠ 0)).map DateTime.fromTimestamp })
    (fun s => ⟨rfl, rfl, rfl⟩) ?_
  rfl

/-- **One event keeps the rows in agreement with the book.** -/
theorem agrees_step {r : RenewalRun} (h : Agrees σ r.state.db r.book) (e : RenewalEvent) :
    Agrees σ (step σ r e).state.db (step σ r e).book := by
  cases e with
  | invoiceCreated i id ctx =>
    simp only [step]
    cases hok : r.state.handleInvoiceCreated σ.orgId (σ.invoice i id) ctx with
    | error e => exact h
    | ok st =>
      obtain ⟨hopen, hsub⟩ := handleInvoiceCreated_frame hok
      exact h.opens hopen hsub
  | invoicePaid i id live ctx =>
    simp only [step]
    cases hok : r.state.handleInvoicePaid σ.orgId (σ.invoice i id)
        (σ.bound live, σ.bound (live + 1)) ctx with
    | error e => exact h
    | ok st => exact agrees_invoicePaid h hok
  | subscriptionUpdated k status plan canceledAt ctx =>
    exact agrees_subscriptionUpdated h k status plan canceledAt ctx
  | syncUsage k =>
    obtain ⟨hopen, hsub⟩ := @UsageState.syncToDatabase_frame σ.orgId r.state
      (k.map (fun k => (σ.start k, σ.stop k)))
    exact h.opens hopen hsub
  | traffic redis cache => exact h

/-- **A whole run keeps the rows in agreement with its book.** -/
theorem agrees_run {r : RenewalRun} (h : Agrees σ r.state.db r.book) (es : List RenewalEvent) :
    Agrees σ (run σ r es).state.db (run σ r es).book := by
  induction es generalizing r with
  | nil => exact h
  | cons e es ih => exact ih (agrees_step h e)

/-- A subscription in one of its periods, none of whose usage is billed yet. -/
structure Starts (σ : RenewalSchedule) (st : UsageState) (i₀ : Nat) : Prop where
  current : ∃ s, st.db.subscription = some s ∧ s.stripeSubscriptionId = some σ.subscriptionId ∧
    s.currentPeriodStart = σ.start i₀ ∧ s.currentPeriodEnd = σ.stop i₀
  unbilled : ∀ t u, st.db.usage t = some u → u.billed = false

theorem Starts.agrees {st : UsageState} {i₀ : Nat} (h : Starts σ st i₀) :
    Agrees σ st.db (book ⟨st, [], [i₀]⟩) where
  current := by simpa [book, largest] using h.current
  closed t e inv hb := by
    obtain ⟨u, hu, he⟩ := Option.map_eq_some_iff.mp hb
    have hun := h.unbilled t u hu
    simp only [Prod.mk.injEq] at he
    rw [hun] at he
    exact absurd he.2.1 (by simp)
  booked i hi := absurd rfl hi

theorem seen_run (r : RenewalRun) (es : List RenewalEvent) (h : r.seen ≠ []) :
    (run σ r es).seen ≠ [] := by
  induction es generalizing r with
  | nil => exact h
  | cons e es ih =>
    refine ih (step σ r e) ?_
    cases e with
    | invoiceCreated i id ctx => simp only [step]; split <;> exact h
    | invoicePaid i id live ctx => simp only [step]; split <;> simp [h]
    | subscriptionUpdated k status plan canceledAt ctx => simp [step]
    | syncUsage k => exact h
    | traffic redis cache => exact h

/-- The first invoice naming a period, spelled out. -/
theorem firstInvoice_eq_some {paid : List (Nat × String)} {i : Nat} {id : String}
    (h : firstInvoice paid i = some id) :
    ∃ before after, paid = before ++ (i, id) :: after ∧ ∀ x ∈ before, x.1 ≠ i := by
  obtain ⟨x, hx, rfl⟩ := Option.map_eq_some_iff.mp h
  obtain ⟨hp, before, after, rfl, hbefore⟩ := List.find?_eq_some_iff_append.mp hx
  simp only [decide_eq_true_eq] at hp
  refine ⟨before, after, by rw [← hp], ?_⟩
  intro y hy
  simpa using hbefore y hy

theorem firstInvoice_ne_none {paid : List (Nat × String)} {x : Nat × String} (h : x ∈ paid) :
    firstInvoice paid x.1 ≠ none := by
  intro hnone
  rw [firstInvoice, Option.map_eq_none_iff, List.find?_eq_none] at hnone
  exact hnone x h (by simp)

/-- **Renewal events settle the right period in any order.**  After any sequence of the
events of a subscription, with any duplication and with syncs and traffic in between: a
record is billed if and only if a successful `invoice.paid` run named exactly its period;
it carries the id of the first such invoice; every such run has left a billed record of
the period it named; and the subscription row is in the largest period seen. -/
theorem renewals_settle {st : UsageState} {i₀ : Nat} (h : Starts σ st i₀)
    (es : List RenewalEvent) :
    (∀ t u, (run σ ⟨st, [], [i₀]⟩ es).state.db.usage t = some u →
      (u.billed = true ↔ ∃ x ∈ (run σ ⟨st, [], [i₀]⟩ es).paid,
        u.periodStart = σ.start x.1 ∧ u.periodEnd = σ.stop x.1)) ∧
    (∀ t u, (run σ ⟨st, [], [i₀]⟩ es).state.db.usage t = some u → u.billed = true →
      ∃ before i id after, (run σ ⟨st, [], [i₀]⟩ es).paid = before ++ (i, id) :: after ∧
        (∀ x ∈ before, x.1 ≠ i) ∧ u.periodStart = σ.start i ∧ u.stripeInvoiceId = some id) ∧
    (∀ x ∈ (run σ ⟨st, [], [i₀]⟩ es).paid, ∃ u,
      (run σ ⟨st, [], [i₀]⟩ es).state.db.usage (σ.start x.1) = some u ∧
        u.periodEnd = σ.stop x.1 ∧ u.billed = true) ∧
    (∃ s m, (run σ ⟨st, [], [i₀]⟩ es).state.db.subscription = some s ∧
      s.currentPeriodStart = σ.start m ∧ s.currentPeriodEnd = σ.stop m ∧
      m ∈ (run σ ⟨st, [], [i₀]⟩ es).seen ∧ ∀ k ∈ (run σ ⟨st, [], [i₀]⟩ es).seen, k ≤ m) := by
  -- the book of the run says which invoice closed which period; the rows agree with it
  have hag := @agrees_run σ ⟨st, [], [i₀]⟩ h.agrees es
  have hseen := largest_isGreatest (@seen_run σ ⟨st, [], [i₀]⟩ es (by simp))
  generalize run σ ⟨st, [], [i₀]⟩ es = r at hag hseen ⊢
  have hpaid : ∀ x ∈ r.paid, ∃ u, r.state.db.usage (σ.start x.1) = some u ∧
      u.periodEnd = σ.stop x.1 ∧ u.billed = true := by
    intro x hx
    obtain ⟨u, hu, he⟩ := Option.map_eq_some_iff.mp (hag.booked x.1 (firstInvoice_ne_none hx))
    simp only [Prod.mk.injEq] at he
    exact ⟨u, hu, he.1, he.2.1⟩
  have hclosed : ∀ t u, r.state.db.usage t = some u → u.billed = true →
      ∃ i id, u.periodStart = σ.start i ∧ u.periodEnd = σ.stop i ∧
        firstInvoice r.paid i = some id ∧ u.stripeInvoiceId = some id := by
    intro t u hu hb
    have hset := BillingDb.settlement_eq_some hu
    rw [hb] at hset
    obtain ⟨i, ht, he, hinv, hne⟩ := hag.closed _ _ _ hset
    obtain ⟨id, hid⟩ := Option.ne_none_iff_exists'.mp hne
    exact ⟨i, id, (r.state.db.usage_keyed t u hu).trans ht, he, hinv.trans hid, hid⟩
  refine ⟨?_, ?_, hpaid, ?_⟩
  · intro t u hu
    constructor
    · intro hb
      obtain ⟨i, id, hstart, hstop, hfirst, -⟩ := hclosed t u hu hb
      obtain ⟨before, after, hp, -⟩ := firstInvoice_eq_some hfirst
      exact ⟨(i, id), by rw [hp]; simp, hstart, hstop⟩
    · rintro ⟨x, hx, hstart, -⟩
      obtain ⟨u', hu', -, hb⟩ := hpaid x hx
      -- the record named by the paid invoice is this one: records are kept by their start
      have ht : t = σ.start x.1 := (r.state.db.usage_keyed t u hu).symm.trans hstart
      rw [← ht, hu] at hu'
      cases hu'
      exact hb
  · intro t u hu hb
    obtain ⟨i, id, hstart, -, hfirst, hid⟩ := hclosed t u hu hb
    obtain ⟨before, after, hp, hbefore⟩ := firstInvoice_eq_some hfirst
    exact ⟨before, i, id, after, hp, hbefore, hstart, hid⟩
  · obtain ⟨s, hs, -, hstart, hstop⟩ := hag.current
    exact ⟨s, _, hs, hstart, hstop, hseen⟩

/-- Thirty-day periods. -/
def monthly : RenewalSchedule where
  orgId := "org"
  subscriptionId := "sub"
  bound i := 2592000 * (i + 1)
  subscriptionId_ne := by decide
  bound_pos := by decide
  bound_lt := by
    intro i j h
    have : (i : Int) < j := by exact_mod_cast h
    show 2592000 * ((i : Int) + 1) < 2592000 * ((j : Int) + 1)
    omega

/-- The organization once its checkout has completed. -/
def checkedOut : UsageState :=
  UsageState.handleCheckoutCompleted "org"
    ⟨BillingDb.empty, none, ⟨fun _ _ => none, fun _ => none⟩⟩
    ⟨.pro, some "cus", "sub", monthly.bound 0, monthly.bound 1⟩ ⟨true, true, 0, "report", []⟩

/-- The update event of the new period first, then the paid invoice of the old one, twice. -/
theorem renewals_settle_paid_twice :
    ∃ u, (run monthly ⟨checkedOut, [], [0]⟩
      [.subscriptionUpdated 1 (some "active") none none ⟨true, true, 1, "a", []⟩,
        .invoicePaid 0 "in_1" 1 ⟨true, true, 2, "b", []⟩,
        .invoicePaid 0 "in_1" 1 ⟨true, true, 3, "c", []⟩]).state.db.usage (monthly.start 0) =
      some u ∧ u.billed = true := by
  have hstart : Starts monthly checkedOut 0 := by
    refine ⟨⟨_, rfl, rfl, rfl, rfl⟩, ?_⟩
    intro t u hu
    by_cases ht : t = monthly.start 0
    · subst ht
      cases hu
      rfl
    · have hnone : checkedOut.db.usage t = none := Function.update_of_ne ht _ _
      rw [hnone] at hu
      cases hu
  obtain ⟨u, hu, -, hb⟩ := (renewals_settle hstart
    [.subscriptionUpdated 1 (some "active") none none ⟨true, true, 1, "a", []⟩,
      .invoicePaid 0 "in_1" 1 ⟨true, true, 2, "b", []⟩,
      .invoicePaid 0 "in_1" 1 ⟨true, true, 3, "c", []⟩]).2.2.1 (0, "in_1") (by decide)
  exact ⟨u, hu, hb⟩

end RenewalRun
end PandaProbe
