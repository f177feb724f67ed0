import PandaProbe.DeliveryOnce

/-! # The loop of `deliver`

`deliver` reads the report row again in every iteration, and other workers may have advanced it
in between.  Here the machine of `StripeDelivery` is run by calls of `deliver`: a call begins an
iteration with `lock_report`, goes on after a commit, and returns or raises where the source
does.  Each call counts its iterations and steps, and every `stripe.InvoiceItem.create` is kept.

Nothing is assumed of Stripe: what it answers may change in any way between two steps.

`turn_of_step` says what a step does to the row and to the worker that takes it.  A step that
ends an iteration and not the call has recorded an intent, given up an invoice or recorded an
item, and nothing undoes any of these (`remaining`).
-/
namespace PandaProbe

/-- What a call of `deliver` has done so far. -/
structure CallProgress where
  iterations : Nat
  steps : Nat
  deriving DecidableEq, Repr

/-- The machine, the calls of `deliver` by worker, and the parameters of every
`stripe.InvoiceItem.create` so far. -/
structure DeliverLoop where
  machine : Delivery
  calls : Nat → Option CallProgress
  created : List ChargeRequest

/-- What can happen next. -/
inductive LoopAct
  | call (w : Nat)
  | leave (w : Nat)
  | act (a : DeliveryAct)
  | outside (clock : DateTime) (draft : String → Bool)
      (memo : String → Option (DateTime × StripeItem)) (items : List StripeItem)

/-- The worker that takes a step. -/
def DeliveryAct.worker : DeliveryAct → Option Nat
  | .lock w | .begin w | .retrieve w | .commitIntent w _ | .scan w _ | .record w | .resolve w
  | .carry w | .crash w => some w
  | .handle _ _ receiver => receiver
  | .tick _ | .noteError _ | .repeatSent _ | .finalize _ | .forget _ => none

/-- One more step; `lock_report` begins an iteration. -/
def CallProgress.advance (p : CallProgress) : DeliveryAct → CallProgress
  | .lock _ => ⟨p.iterations + 1, p.steps + 1⟩
  | _ => ⟨p.iterations, p.steps + 1⟩

namespace DeliverLoop

/-- The step is one at which `deliver` returns or raises. -/
def returns (m : Delivery) : DeliveryAct → Bool
  | .begin w =>
    match m.pc w with
    | .locked report => report.status ≠ .pending || report.nextCategory.isNone
    | _ => false
  | .commitIntent w sub =>
    match m.pc w with
    | .chosen report _ params _ => noContinuing report params sub
    | _ => false
  | .scan w listed =>
    match m.pc w with
    | .scanning report c =>
      match findExisting report c listed with
      | .found _ => false
      | _ => true
    | _ => false
  | .resolve w =>
    match m.pc w with
    | .rejected _ _ params blamesInvoice => !(blamesInvoice && !m.stripe.editable params)
    | _ => false
  | .crash _ => true
  | _ => false

/-- The create that a step has sent. -/
def sends (m' : Delivery) : DeliveryAct → List ChargeRequest
  | .begin w =>
    match m'.pc w with
    | .calling _ _ request => [request.params]
    | _ => []
  | _ => []

/-- One step.  At the head of the loop a call may end: the row is locked or gone, or the
database raises. -/
def step (latency : Int) (s : DeliverLoop) : LoopAct → Option DeliverLoop
  | .call w =>
    match s.calls w, s.machine.pc w with
    | none, .idle => some { s with calls := Function.update s.calls w (some ⟨0, 0⟩) }
    | _, _ => none
  | .leave w =>
    match s.calls w, s.machine.pc w with
    | some _, .idle => some { s with calls := Function.update s.calls w none }
    | _, _ => none
  | .act a =>
    match s.machine.step latency a, a.worker with
    | none, _ => none
    | some m, none => some { s with machine := m }
    | some m, some w =>
      match s.calls w with
      | none => none
      | some p =>
        let progress := if returns s.machine a then none else some (p.advance a)
        some ⟨m, Function.update s.calls w progress, sends m a ++ s.created⟩
  | .outside clock draft memo items =>
    some { s with machine :=
      { s.machine with clock := clock, stripe := ⟨draft, memo, items, s.machine.stripe.sent⟩ } }

/-- No call has begun, and nobody works on the report. -/
structure Quiet (s : DeliverLoop) : Prop where
  idle : ∀ w, s.machine.pc w = .idle
  uncalled : ∀ w, s.calls w = none
  uncreated : s.created = []

/-! ## What is left to do -/

/-- What is left to do for a category: record its item, and before that its intent; and the
same again without the invoice, as long as there is one. -/
def remainingFor (row : BillingReport) (c : UsageCategory) : Nat :=
  match row.requests c, row.stripeItemIds c with
  | some q, none =>
    1 + (if (row.attemptedAt c).isNone then 1 else 0) + if (truthy q.invoice).isSome then 2 else 0
  | _, _ => 0

/-- What is left to do for the report. -/
def remaining (row : BillingReport) : Nat := (UsageCategory.all.map (remainingFor row)).sum

/-- The rows agree in what `remaining` looks at. -/
def SameRequests (row row' : BillingReport) : Prop :=
  row'.requests = row.requests ∧ row'.attemptedAt = row.attemptedAt ∧
    row'.stripeItemIds = row.stripeItemIds

/-- The request of a category that has no item yet. -/
def Open (row : BillingReport) (c : UsageCategory) (q : ChargeRequest) : Prop :=
  row.requests c = some q ∧ row.stripeItemIds c = none

/-- **Everything a transaction of `deliver` can write.** -/
inductive Wrote (row : BillingReport) : BillingReport → Prop
  | other {row' : BillingReport} : SameRequests row row' → Wrote row row'
  | attempted {c : UsageCategory} {q params : ChargeRequest} {now : DateTime} : Open row c q →
      row.attemptedAt c = none → (params = q ∨ params = q.dropInvoice) →
      Wrote row (row.attempt c params now)
  | carried {c : UsageCategory} {q : ChargeRequest} : Open row c q →
      (row.attemptedAt c).isSome → (truthy q.invoice).isSome → Wrote row (row.carryOver c q)
  | recorded {c : UsageCategory} {q : ChargeRequest} {item : String} : Open row c q →
      Wrote row (row.recordItem c item)

theorem SameRequests.remaining_eq {row row' : BillingReport} (h : SameRequests row row') :
    remaining row' = remaining row := by
  obtain ⟨hreq, hatt, hitem⟩ := h
  have hfor : remainingFor row' = remainingFor row := by
    funext c
    unfold remainingFor
    rw [hreq, hatt, hitem]
  rw [remaining, hfor, remaining]

theorem remainingFor_le (row : BillingReport) (c : UsageCategory) : remainingFor row c ≤ 4 := by
  unfold remainingFor
  split
  · split <;> split <;> omega
  · omega

theorem remaining_le (row : BillingReport) : remaining row ≤ 12 := by
  have htraces := remainingFor_le row .traces
  have htraceEvals := remainingFor_le row .traceEvals
  have hsessionEvals := remainingFor_le row .sessionEvals
  simp only [remaining, UsageCategory.all, List.map_cons, List.map_nil, List.sum_cons,
    List.sum_nil]
  omega

/-- Less is left if less is left for one category, and the others are as they were. -/
theorem remaining_lt {row row' : BillingReport} {c : UsageCategory}
    (hother : ∀ d, d ≠ c → remainingFor row' d = remainingFor row d)
    (hc : remainingFor row' c < remainingFor row c) : remaining row' < remaining row := by
  have htraces := hother .traces
  have htraceEvals := hother .traceEvals
  have hsessionEvals := hother .sessionEvals
  simp only [remaining, UsageCategory.all, List.map_cons, List.map_nil, List.sum_cons,
    List.sum_nil]
  cases c with
  | traces => rw [htraceEvals (by decide), hsessionEvals (by decide)]; omega
  | traceEvals => rw [htraces (by decide), hsessionEvals (by decide)]; omega
  | sessionEvals => rw [htraces (by decide), htraceEvals (by decide)]; omega

theorem truthy_dropInvoice (q : ChargeRequest) : truthy q.dropInvoice.invoice = none := rfl

theorem remaining_attempt {row : BillingReport} {c : UsageCategory} {q params : ChargeRequest}
    {now : DateTime} (hopen : Open row c q) (hnone : row.attemptedAt c = none)
    (hparams : params = q ∨ params = q.dropInvoice) :
    remaining (row.attempt c params now) < remaining row := by
  refine remaining_lt (c := c) (fun d hd => ?_) ?_
  · simp only [remainingFor, BillingReport.attempt, Function.update_of_ne hd]
  · obtain ⟨hreq, hitem⟩ := hopen
    rcases hparams with rfl | rfl
    · simp [remainingFor, BillingReport.attempt, hreq, hitem, hnone]
    · simp only [remainingFor, BillingReport.attempt, Function.update_self, hreq, hitem, hnone,
        truthy_dropInvoice, Option.isSome_none, Option.isNone_some, Option.isNone_none,
        Bool.false_eq_true, if_false, if_true]
      omega

theorem remaining_carryOver {row : BillingReport} {c : UsageCategory} {q : ChargeRequest}
    (hopen : Open row c q) (hinvoice : (truthy q.invoice).isSome) :
    remaining (row.carryOver c q) < remaining row := by
  refine remaining_lt (c := c) (fun d hd => ?_) ?_
  · simp only [remainingFor, BillingReport.carryOver, Function.update_of_ne hd]
  · obtain ⟨hreq, hitem⟩ := hopen
    have hcarried : truthy q.carryover.invoice = none := rfl
    -- the intent is to be recorded again, but the invoice is gone
    simp [remainingFor, BillingReport.carryOver, hreq, hitem, hcarried, hinvoice]

theorem remaining_recordItem {row : BillingReport} {c : UsageCategory} {q : ChargeRequest}
    {item : String} (hopen : Open row c q) :
    remaining (row.recordItem c item) < remaining row := by
  refine remaining_lt (c := c) (fun d hd => ?_) ?_
  · simp [remainingFor, BillingReport.recordItem, Function.update_of_ne hd]
  · obtain ⟨hreq, hitem⟩ := hopen
    simp only [remainingFor, BillingReport.recordItem, Function.update_self, hreq, hitem]
    omega

/-- **No write leaves more to do.** -/
theorem Wrote.remaining_le {row row' : BillingReport} (h : Wrote row row') :
    remaining row' ≤ remaining row := by
  cases h with
  | other hsame => exact le_of_eq hsame.remaining_eq
  | attempted hopen hnone hparams => exact le_of_lt (remaining_attempt hopen hnone hparams)
  | carried hopen _ hinvoice => exact le_of_lt (remaining_carryOver hopen hinvoice)
  | recorded hopen => exact le_of_lt (remaining_recordItem hopen)

/-! ## What a step does -/

/-- What a worker knows of the row where it is. -/
def Knows (row : BillingReport) : Pc → Prop
  | .idle => True
  | .locked report => report = row
  | .choosing report c params _ => report = row ∧ Open row c params ∧ row.attemptedAt c = none
  | .chosen report c params _ =>
    report = row ∧ row.attemptedAt c = none ∧
      ∃ q, Open row c q ∧ (params = q ∨ params = q.dropInvoice)
  | .scanning report c => report = row ∧ ∃ q, Open row c q
  | .calling report c request =>
    report = row ∧ Open row c request.params ∧ (row.attemptedAt c).isSome
  | .answered report c _ => report = row ∧ ∃ q, Open row c q
  | .rejected report c params _ =>
    report = row ∧ Open row c params ∧ (row.attemptedAt c).isSome
  | .carrying report c params =>
    report = row ∧ Open row c params ∧ (row.attemptedAt c).isSome ∧ (truthy params.invoice).isSome

/-- How many steps of an iteration may be left. -/
def stepsLeft : Pc → Nat
  | .idle => 5
  | .locked _ => 4
  | .choosing .. => 3
  | .calling .. => 3
  | .rejected .. => 2
  | .chosen .. => 1
  | .scanning .. => 1
  | .answered .. => 1
  | .carrying .. => 1

/-- **A worker inside a transaction has the lock, and its copy of the row is current.** -/
structure Held (m : Delivery) : Prop where
  exclusive : ∀ w, m.pc w ≠ .idle → m.holder = some w
  knows : ∀ w, Knows m.row (m.pc w)

/-- **What a step can do**: a step outside leaves the workers where they are; a worker locks the
row; it moves on inside its transaction; or it ends its transaction, and if the call goes on,
less is left to do. -/
inductive Turn (m : Delivery) (a : DeliveryAct) (m' : Delivery) : Prop
  | outside : a.worker = none → m'.pc = m.pc → m'.holder = m.holder →
      (m'.row = m.row ∨ m.holder = none ∧ SameRequests m.row m'.row) → Turn m a m'
  | locks {w : Nat} : a = .lock w → m.pc w = .idle → m.holder = none → m'.row = m.row →
      m'.holder = some w → m'.pc = Function.update m.pc w (.locked m.row) → Turn m a m'
  | moves {w : Nat} {p : Pc} : a.worker = some w → m'.pc = Function.update m.pc w p →
      m'.row = m.row → m'.holder = m.holder → a ≠ .lock w → m.pc w ≠ .idle → p ≠ .idle →
      Knows m.row p → stepsLeft p < stepsLeft (m.pc w) → Turn m a m'
  | ends {w : Nat} : a.worker = some w → a ≠ .lock w → m.pc w ≠ .idle → Wrote m.row m'.row →
      (returns m a = false → remaining m'.row < remaining m.row) → m'.holder = none →
      m'.pc = Function.update m.pc w .idle → Turn m a m'

variable {m m' : Delivery} {w : Nat}

theorem Held.idle_of_ne (h : Held m) (hw : m.pc w ≠ .idle) {v : Nat} (hv : v ≠ w) :
    m.pc v = .idle := by
  by_contra hne
  have hholder := h.exclusive v hne
  rw [h.exclusive w hw] at hholder
  exact hv (Option.some.inj hholder).symm

theorem Held.idle_of_unlocked (h : Held m) (hfree : m.holder = none) (v : Nat) : m.pc v = .idle := by
  by_contra hne
  rw [h.exclusive v hne] at hfree
  cases hfree

theorem SameRequests.refl (row : BillingReport) : SameRequests row row := ⟨rfl, rfl, rfl⟩

/-- A step that returns or raises and leaves the requests as they are. -/
theorem turn_release {a : DeliveryAct} {row : BillingReport} (ha : a.worker = some w)
    (hlock : a ≠ .lock w) (hpc : m.pc w ≠ .idle) (hrow : SameRequests m.row row)
    (hreturns : returns m a = true) : Turn m a (m.release w row) :=
  .ends ha hlock hpc (.other hrow) (fun h => by rw [hreturns] at h; cases h) rfl rfl

/-- A step that writes the row and goes on. -/
theorem turn_wrote {a : DeliveryAct} {row : BillingReport} (ha : a.worker = some w)
    (hlock : a ≠ .lock w) (hpc : m.pc w ≠ .idle) (hrow : Wrote m.row row)
    (hless : remaining row < remaining m.row) : Turn m a (m.release w row) :=
  .ends ha hlock hpc hrow (fun _ => hless) rfl rfl

/-- The category of an iteration has a request and no item. -/
theorem open_of_nextCategory {row : BillingReport} {c : UsageCategory}
    (h : row.nextCategory = some c) : ∃ q, Open row c q := by
  have hfound := List.find?_some h
  simp only [Bool.and_eq_true, Option.isSome_iff_exists, Option.isNone_iff_eq_none] at hfound
  obtain ⟨⟨q, hq⟩, hitem⟩ := hfound
  exact ⟨q, hq, hitem⟩

theorem turn_start {report : BillingReport} (h : Held m) (hpc : m.pc w = .locked report) :
    Turn m (.begin w) (m.start w report) := by
  have hbusy : m.pc w ≠ .idle := by rw [hpc]; nofun
  obtain rfl : report = m.row := by simpa [Knows, hpc] using h.knows w
  unfold Delivery.start
  split
  next hstatus =>
    exact turn_release rfl nofun hbusy (.refl _) (by simp [returns, hpc, hstatus])
  next hstatus =>
    split
    next hnone =>
      exact turn_release rfl nofun hbusy ⟨rfl, rfl, rfl⟩ (by simp [returns, hpc, hnone])
    next c hc =>
      obtain ⟨q, hreq, hitem⟩ := open_of_nextCategory hc
      rw [hreq]
      dsimp only
      split
      next hatt =>
        exact .moves rfl rfl rfl rfl nofun hbusy nofun ⟨rfl, ⟨hreq, hitem⟩, hatt⟩
          (by simp [hpc, stepsLeft])
      next t hatt =>
        split
        · exact .moves rfl rfl rfl rfl nofun hbusy nofun ⟨rfl, q, hreq, hitem⟩
            (by simp [hpc, stepsLeft])
        · exact .moves rfl rfl rfl rfl nofun hbusy nofun
            ⟨rfl, ⟨hreq, hitem⟩, by rw [hatt]; rfl⟩ (by simp [hpc, stepsLeft])

theorem turn_retrieve (h : Held m) (hs : m.retrieve w = some m') : Turn m (.retrieve w) m' := by
  unfold Delivery.retrieve at hs
  split at hs
  next report c params now hpc =>
    cases hs
    obtain ⟨rfl, hopen, hatt⟩ : Knows m.row (.choosing report c params now) := hpc ▸ h.knows w
    refine .moves rfl rfl rfl rfl nofun (by rw [hpc]; nofun) nofun ⟨rfl, hatt, params, hopen, ?_⟩
      (by simp [hpc, stepsLeft])
    split
    · exact .inl rfl
    · exact .inr rfl
  · cases hs

theorem turn_commitIntent {sub : Option Subscription} (h : Held m)
    (hs : m.commitIntent w sub = some m') : Turn m (.commitIntent w sub) m' := by
  unfold Delivery.commitIntent at hs
  split at hs
  next report c params now hpc =>
    obtain ⟨rfl, hatt, q, hopen, hparams⟩ : Knows m.row (.chosen report c params now) :=
      hpc ▸ h.knows w
    have hbusy : m.pc w ≠ .idle := by rw [hpc]; nofun
    split at hs
    next hreview =>
      cases hs
      exact turn_release rfl nofun hbusy ⟨rfl, rfl, rfl⟩ (by simp [returns, hpc, hreview])
    · cases hs
      exact turn_wrote rfl nofun hbusy (.attempted hopen hatt hparams)
        (remaining_attempt hopen hatt hparams)
  · cases hs

theorem turn_scan {listed : List StripeItem} (h : Held m) (hs : m.scan w listed = some m') :
    Turn m (.scan w listed) m' := by
  unfold Delivery.scan at hs
  split at hs
  next report c hpc =>
    obtain ⟨rfl, q, hopen⟩ : Knows m.row (.scanning report c) := hpc ▸ h.knows w
    have hbusy : m.pc w ≠ .idle := by rw [hpc]; nofun
    split at hs
    · split at hs
      · cases hs
        exact turn_wrote rfl nofun hbusy (.recorded hopen) (remaining_recordItem hopen)
      next hfound =>
        cases hs
        exact turn_release rfl nofun hbusy ⟨rfl, rfl, rfl⟩ (by simp [returns, hpc, hfound])
      next hfound =>
        cases hs
        exact turn_release rfl nofun hbusy ⟨rfl, rfl, rfl⟩ (by simp [returns, hpc, hfound])
    · cases hs
  · cases hs

theorem turn_record (h : Held m) (hs : m.record w = some m') : Turn m (.record w) m' := by
  unfold Delivery.record at hs
  split at hs
  next report c item hpc =>
    cases hs
    obtain ⟨rfl, q, hopen⟩ : Knows m.row (.answered report c item) := hpc ▸ h.knows w
    exact turn_wrote rfl nofun (by rw [hpc]; nofun) (.recorded hopen) (remaining_recordItem hopen)
  · cases hs

theorem turn_resolve (h : Held m) (hs : m.resolve w = some m') : Turn m (.resolve w) m' := by
  unfold Delivery.resolve at hs
  split at hs
  next report c params blames hpc =>
    obtain ⟨rfl, hopen, hatt⟩ : Knows m.row (.rejected report c params blames) := hpc ▸ h.knows w
    have hbusy : m.pc w ≠ .idle := by rw [hpc]; nofun
    split at hs
    next hblame =>
      cases hs
      -- a request that cannot be edited names an invoice
      have hinvoice : (truthy params.invoice).isSome := by
        obtain ⟨-, hclosed⟩ := hblame
        unfold Stripe.editable at hclosed
        split at hclosed
        next i hi => rw [hi]; rfl
        · cases hclosed
      exact .moves rfl rfl rfl rfl nofun hbusy nofun ⟨rfl, hopen, hatt, hinvoice⟩
        (by simp [hpc, stepsLeft])
    next hblame =>
      cases hs
      refine turn_release rfl nofun hbusy (.refl _) ?_
      cases blames <;> simp_all [returns]
  · cases hs

theorem turn_carry (h : Held m) (hs : m.carry w = some m') : Turn m (.carry w) m' := by
  unfold Delivery.carry at hs
  split at hs
  next report c params hpc =>
    cases hs
    obtain ⟨rfl, hopen, hatt, hinvoice⟩ : Knows m.row (.carrying report c params) := hpc ▸ h.knows w
    exact turn_wrote rfl nofun (by rw [hpc]; nofun) (.carried hopen hatt hinvoice)
      (remaining_carryOver hopen hinvoice)
  · cases hs

theorem turn_noteError {message : String} (hs : m.noteError message = some m') :
    Turn m (.noteError message) m' := by
  unfold Delivery.noteError at hs
  split at hs
  next hfree =>
    split at hs
    · cases hs
      exact .outside rfl rfl rfl (.inr ⟨hfree, rfl, rfl, rfl⟩)
    · cases hs
      exact .outside rfl rfl rfl (.inl rfl)
  · cases hs

theorem turn_handle {latency : Int} {x : Sent} {verdict : Verdict} {receiver : Option Nat}
    (h : Held m) (hs : m.handle latency x verdict receiver = some m') :
    Turn m (.handle x verdict receiver) m' := by
  unfold Delivery.handle at hs
  split at hs
  · generalize m.stripe.create m.clock x verdict = result at hs
    obtain ⟨stripe, response⟩ := result
    cases receiver with
    | none =>
      cases hs
      exact .outside rfl rfl rfl (.inl rfl)
    | some w =>
      simp only [Delivery.respond] at hs
      split at hs
      next report c request hpc =>
        obtain ⟨rfl, hopen, hatt⟩ : Knows m.row (.calling report c request) := hpc ▸ h.knows w
        have hbusy : m.pc w ≠ .idle := by
          rw [hpc]
          simp
        split at hs
        · cases response with
          | item item =>
            cases hs
            exact .moves rfl rfl rfl rfl (fun hw => by cases hw) hbusy (by simp)
              ⟨rfl, request.params, hopen⟩ (by simp [hpc, stepsLeft])
          | invalidRequest blames =>
            cases hs
            exact .moves rfl rfl rfl rfl (fun hw => by cases hw) hbusy (by simp) ⟨rfl, hopen, hatt⟩
              (by simp [hpc, stepsLeft])
        · cases hs
      · cases hs
  · cases hs

/-- **What a step of the machine does.** -/
theorem turn_of_step {latency : Int} {a : DeliveryAct} (h : Held m)
    (hs : m.step latency a = some m') : Turn m a m' := by
  cases a with
  | tick d =>
    cases hs
    exact .outside rfl rfl rfl (.inl rfl)
  | lock w =>
    simp only [Delivery.step, Delivery.lock] at hs
    split at hs
    next hpc hfree =>
      cases hs
      exact .locks rfl hpc hfree rfl rfl rfl
    · cases hs
  | begin w =>
    simp only [Delivery.step] at hs
    split at hs
    next report hpc =>
      cases hs
      exact turn_start h hpc
    · cases hs
  | retrieve w => exact turn_retrieve h hs
  | commitIntent w sub => exact turn_commitIntent h hs
  | scan w listed => exact turn_scan h hs
  | record w => exact turn_record h hs
  | resolve w => exact turn_resolve h hs
  | carry w => exact turn_carry h hs
  | crash w =>
    simp only [Delivery.step, Delivery.crash] at hs
    split at hs
    · cases hs
    next hpc =>
      cases hs
      exact turn_release rfl (by simp) hpc (.refl _) rfl
  | noteError message => exact turn_noteError hs
  | repeatSent x =>
    simp only [Delivery.step] at hs
    split at hs
    · cases hs
      exact .outside rfl rfl rfl (.inl rfl)
    · cases hs
  | handle x verdict receiver => exact turn_handle h hs
  | finalize invoice =>
    cases hs
    exact .outside rfl rfl rfl (.inl rfl)
  | forget key =>
    simp only [Delivery.step] at hs
    split at hs
    · split at hs
      · cases hs
        exact .outside rfl rfl rfl (.inl rfl)
      · cases hs
    · cases hs

/-- **A step keeps the copies current.** -/
theorem Turn.held {a : DeliveryAct} (h : Held m) (hturn : Turn m a m') : Held m' := by
  cases hturn with
  | outside _ hpc hholder hrow =>
    refine ⟨fun v hv => ?_, fun v => ?_⟩
    · rw [hholder]
      exact h.exclusive v (hpc ▸ hv)
    · rw [hpc]
      rcases hrow with hrow | ⟨hfree, -⟩
      · rw [hrow]
        exact h.knows v
      · rw [h.idle_of_unlocked hfree v]
        trivial
  | @locks w _ _ hfree hrow hholder hpc =>
    have hidle := h.idle_of_unlocked hfree
    refine ⟨fun v hv => ?_, fun v => ?_⟩
    · by_cases hvw : v = w
      · rw [hholder, hvw]
      · rw [hpc, Function.update_of_ne hvw] at hv
        exact absurd (hidle v) hv
    · rw [hpc, hrow]
      by_cases hvw : v = w
      · rw [hvw, Function.update_self]
        exact rfl
      · rw [Function.update_of_ne hvw, hidle v]
        trivial
  | @moves w p _ hpc hrow hholder _ hbusy _ hp =>
    refine ⟨fun v hv => ?_, fun v => ?_⟩
    · by_cases hvw : v = w
      · rw [hholder, hvw]
        exact h.exclusive w hbusy
      · rw [hpc, Function.update_of_ne hvw] at hv
        exact absurd (h.idle_of_ne hbusy hvw) hv
    · rw [hpc, hrow]
      by_cases hvw : v = w
      · rw [hvw, Function.update_self]
        exact hp
      · rw [Function.update_of_ne hvw]
        exact h.knows v
  | @ends w _ _ hbusy _ _ _ hpc =>
    have hidle : ∀ v, m'.pc v = .idle := by
      intro v
      rw [hpc]
      by_cases hvw : v = w
      · rw [hvw, Function.update_self]
      · rw [Function.update_of_ne hvw]
        exact h.idle_of_ne hbusy hvw
    exact ⟨fun v hv => absurd (hidle v) hv, fun v => by rw [hidle v]; trivial⟩

/-- No step leaves more to do. -/
theorem Turn.remaining_le {a : DeliveryAct} (hturn : Turn m a m') :
    remaining m'.row ≤ remaining m.row := by
  cases hturn with
  | outside _ _ _ hrow =>
    rcases hrow with hrow | ⟨-, hsame⟩
    · rw [hrow]
    · exact le_of_eq hsame.remaining_eq
  | locks _ _ _ hrow => rw [hrow]
  | moves _ _ hrow => rw [hrow]
  | ends _ _ _ hwrote => exact hwrote.remaining_le

/-! ## The loop ends -/

/-- The iterations and steps that a call may have behind it, by what is left to do. -/
structure Spent (row : BillingReport) (pc : Pc) (p : CallProgress) : Prop where
  iterations : p.iterations + remaining row + (if stepsLeft pc = 5 then 1 else 0) ≤ 13
  steps : p.steps + 5 * remaining row + stepsLeft pc ≤ 65

/-- **The invariant of the loop.** -/
structure Bounded (s : DeliverLoop) : Prop where
  held : Held s.machine
  spent : ∀ w p, s.calls w = some p → Spent s.machine.row (s.machine.pc w) p

theorem Quiet.held {s : DeliverLoop} (h : Quiet s) : Held s.machine :=
  ⟨fun w hw => absurd (h.idle w) hw, fun w => by rw [h.idle w]; trivial⟩

theorem Quiet.bounded {s : DeliverLoop} (h : Quiet s) : Bounded s :=
  ⟨h.held, fun w p hp => by rw [h.uncalled w] at hp; cases hp⟩

theorem stepsLeft_eq_five {p : Pc} : stepsLeft p = 5 ↔ p = .idle := by
  cases p <;> simp [stepsLeft]

/-- A call that waits while others advance the report. -/
theorem Spent.mono {row row' : BillingReport} {pc : Pc} {p : CallProgress} (h : Spent row pc p)
    (hle : remaining row' ≤ remaining row) : Spent row' pc p := by
  obtain ⟨hiterations, hsteps⟩ := h
  exact ⟨by omega, by omega⟩

theorem spent_fresh (row : BillingReport) : Spent row .idle ⟨0, 0⟩ := by
  have hle := remaining_le row
  constructor
  · simp only [stepsLeft, if_true]
    omega
  · simp only [stepsLeft]
    omega

/-- A step that is not `lock_report`. -/
theorem advance_of_ne {p : CallProgress} {a : DeliveryAct} (h : ∀ w, a ≠ .lock w) :
    p.advance a = ⟨p.iterations, p.steps + 1⟩ := by
  cases a with
  | lock w => exact absurd rfl (h w)
  | _ => rfl

/-- **A step of a call that goes on.** -/
theorem Turn.spent {a : DeliveryAct} {p : CallProgress} (hturn : Turn m a m')
    (ha : a.worker = some w) (hp : Spent m.row (m.pc w) p) (hreturns : returns m a = false) :
    Spent m'.row (m'.pc w) (p.advance a) := by
  obtain ⟨hiterations, hsteps⟩ := hp
  cases hturn with
  | outside hnone => rw [hnone] at ha; cases ha
  | @locks v hlock hpc _ hrow _ hpc' =>
    subst hlock
    obtain rfl : v = w := Option.some.inj ha
    rw [hpc] at hiterations hsteps
    rw [hrow, hpc', Function.update_self]
    simp only [stepsLeft, if_true] at hiterations hsteps
    constructor
    · simp only [stepsLeft, CallProgress.advance, Nat.reduceEqDiff, if_false]
      omega
    · simp only [stepsLeft, CallProgress.advance]
      omega
  | @moves v q hv hpc' hrow _ hlock _ hq _ hless =>
    obtain rfl : v = w := Option.some.inj (hv.symm.trans ha)
    have hbusy : stepsLeft q ≠ 5 := fun h => hq (stepsLeft_eq_five.mp h)
    rw [advance_of_ne fun u hu => hlock (by subst hu; cases ha; rfl), hrow, hpc',
      Function.update_self]
    constructor
    · simp only [if_neg hbusy]
      omega
    · simp only
      omega
  | @ends v hv hlock _ _ hless _ hpc' =>
    obtain rfl : v = w := Option.some.inj (hv.symm.trans ha)
    have hless := hless hreturns
    rw [advance_of_ne fun u hu => hlock (by subst hu; cases ha; rfl), hpc', Function.update_self]
    constructor
    · simp only [stepsLeft, if_true]
      omega
    · simp only [stepsLeft]
      have hpos : 1 ≤ stepsLeft (m.pc v) := by cases m.pc v <;> simp [stepsLeft]
      omega

/-- A step of one worker leaves the others where they are. -/
theorem Turn.pc_of_ne {a : DeliveryAct} (hturn : Turn m a m') {v : Nat}
    (hv : a.worker ≠ some v) : m'.pc v = m.pc v := by
  cases hturn with
  | outside _ hpc => rw [hpc]
  | locks hlock _ _ _ _ hpc =>
    rw [hpc, Function.update_of_ne]
    rintro rfl
    exact hv (by rw [hlock]; rfl)
  | moves ha hpc =>
    rw [hpc, Function.update_of_ne]
    rintro rfl
    exact hv ha
  | ends ha _ _ _ _ _ hpc =>
    rw [hpc, Function.update_of_ne]
    rintro rfl
    exact hv ha

/-- The progress of one call is written. -/
theorem bounded_update {calls : Nat → Option CallProgress} {progress : Option CallProgress}
    {created : List ChargeRequest} (hheld : Held m)
    (hw : ∀ p, progress = some p → Spent m.row (m.pc w) p)
    (hother : ∀ v, v ≠ w → ∀ p, calls v = some p → Spent m.row (m.pc v) p) :
    Bounded ⟨m, Function.update calls w progress, created⟩ where
  held := hheld
  spent := (Function.forall_update_iff calls
    (fun v q => ∀ p, q = some p → Spent m.row (m.pc v) p)).mpr ⟨hw, hother⟩

theorem bounded_step {latency : Int} {s s' : DeliverLoop} {a : LoopAct} (h : Bounded s)
    (hs : s.step latency a = some s') : Bounded s' := by
  cases a with
  | call w =>
    simp only [step] at hs
    split at hs
    next _ hpc =>
      cases hs
      refine bounded_update h.held (fun p hp => ?_) fun v _ => h.spent v
      cases hp
      rw [hpc]
      exact spent_fresh _
    · cases hs
  | leave w =>
    simp only [step] at hs
    split at hs
    · cases hs
      exact bounded_update h.held nofun fun v _ => h.spent v
    · cases hs
  | act a =>
    simp only [step] at hs
    split at hs
    · cases hs
    next m hm ha =>
      cases hs
      have hturn := turn_of_step h.held hm
      refine ⟨hturn.held h.held, fun v p hp => ?_⟩
      rw [hturn.pc_of_ne (by rw [ha]; nofun)]
      exact (h.spent v p hp).mono hturn.remaining_le
    next m w hm ha =>
      have hturn := turn_of_step h.held hm
      split at hs
      · cases hs
      next q hq =>
        cases hs
        refine bounded_update (hturn.held h.held) (fun p hp => ?_) fun v hvw p hp => ?_
        · split at hp
          · cases hp
          next hreturns =>
            cases hp
            exact hturn.spent ha (h.spent w q hq) (by simpa using hreturns)
        · rw [hturn.pc_of_ne (by rw [ha]; exact fun h => hvw (Option.some.inj h).symm)]
          exact (h.spent v p hp).mono hturn.remaining_le
  | outside clock draft memo items =>
    cases hs
    exact ⟨⟨h.held.exclusive, h.held.knows⟩, h.spent⟩

/-- **The loop of `deliver` ends.**  Whatever the report is, whatever Stripe and the database
answer, and however many other calls advance the same report in between, a call that has neither
returned nor raised has begun at most 13 iterations, of at most 65 steps together. -/
theorem deliver_terminates {latency : Int} {s₀ s : DeliverLoop} (hstart : Quiet s₀)
    (hreach : GuardedRun.Reach (step latency) GuardedRun.Always s₀ s) (w : Nat) (p : CallProgress)
    (hcall : s.calls w = some p) : p.iterations ≤ 13 ∧ p.steps ≤ 65 := by
  have hbounded : Bounded s :=
    hreach.invariant hstart.bounded fun _ _ _ h _ hs => bounded_step h hs
  obtain ⟨hiterations, hsteps⟩ := hbounded.spent w p hcall
  exact ⟨by omega, by omega⟩

/-- The report of ten traces above the allowance, before anyone delivers it. -/
def stagedLoop : DeliverLoop := ⟨Delivery.staged, fun _ => none, []⟩

theorem quiet_stagedLoop : Quiet stagedLoop := ⟨fun _ => rfl, fun _ => rfl, rfl⟩

/-- A call sends its request for the draft invoice, which is finalized meanwhile; it carries the
charge over and records the intent once more. -/
def carriedOver : List LoopAct :=
  [.call 0, .act (.lock 0), .act (.begin 0), .act (.retrieve 0), .act (.commitIntent 0 none),
    .act (.lock 0), .act (.begin 0), .act (.finalize "in"),
    .act (.handle (Delivery.stagedRequest 0) (.accept "ii_1") (some 0)), .act (.resolve 0),
    .act (.carry 0), .act (.lock 0), .act (.begin 0), .act (.retrieve 0)]

/-- Three iterations and twelve steps, and the call is in its loop. -/
theorem deliver_terminates_carried :
    ∃ s, GuardedRun.run (step (DateTime.seconds 60)) stagedLoop carriedOver = some s ∧
      s.calls 0 = some ⟨3, 12⟩ ∧ 3 ≤ 13 ∧ 12 ≤ 65 := by
  have hrun : (GuardedRun.run (step (DateTime.seconds 60)) stagedLoop carriedOver).map
      (fun s => s.calls 0) = some (some ⟨3, 12⟩) := by
    decide +kernel
  obtain ⟨s, hs, hcall⟩ := Option.map_eq_some_iff.mp hrun
  exact ⟨s, hs, hcall,
    deliver_terminates quiet_stagedLoop (GuardedRun.reach_of_run hs) 0 ⟨3, 12⟩ hcall⟩

end DeliverLoop
end PandaProbe
