import PandaProbe.StripeDelivery

/-! # At most one charge for a report and a category

What makes `deliver` safe is a relation between the report row, Stripe's memory and the
requests on their way (`Charged`).  A category with no recorded intent has no item.
Once an intent is recorded, the item, if there is one, was created under the row's
current key, and Stripe remembers that key until a day after the intent; every request
still on its way is either a copy of the row's, sent within the safe window, or names an
invoice that has left draft and will be rejected.

Each write of the row and each step of Stripe keeps this relation, which is shown on its
own for every kind of write; the workers only add that their copy of the row is current
and what a rejection has told them (`PcOk`).
-/
namespace PandaProbe
namespace Delivery
variable {id : UUID} {clock : DateTime} {row : BillingReport} {stripe : Stripe} {c : UsageCategory}

/-- A request that names an invoice which has left draft: no copy of it is accepted. -/
def Dead (stripe : Stripe) (x : Sent) : Prop := stripe.editable x.params = false

/-- A copy of the row's request, sent within the safe window of its intent. -/
def Current (row : BillingReport) (x : Sent) : Prop :=
  row.requests x.category = some x.params ∧
    ∃ t, row.attemptedAt x.category = some t ∧ t ≤ x.sentAt ∧ x.sentAt < t + safeRetryAge

/-- **The report row and Stripe agree.** -/
structure Charged (id : UUID) (clock : DateTime) (row : BillingReport) (stripe : Stripe) : Prop where
  named : row.id = id
  labelled : ∀ c q, row.requests c = some q →
    q.metadata.ppReportId = id ∧ q.metadata.category = c
  flights : ∀ x ∈ stripe.sent, Dead stripe x ∨ Current row x
  attempts : ∀ c t, row.attemptedAt c = some t → t ≤ clock
  unattempted : ∀ c, row.attemptedAt c = none → stripe.charges id c = []
  kept : ∀ c t q, row.attemptedAt c = some t → row.requests c = some q →
    stripe.charges id c ≠ [] →
      (∃ first item, stripe.memo q.idempotencyKey = some (first, item) ∧ t ≤ first) ∨
        t + keyLifetime ≤ clock
  single : ∀ c, (stripe.charges id c).length ≤ 1

/-- Nothing has been created for a category and nothing on its way will be. -/
def Settled (id : UUID) (stripe : Stripe) (c : UsageCategory) : Prop :=
  stripe.charges id c = [] ∧ ∀ x ∈ stripe.sent, x.category = c → Dead stripe x

/-- What a worker knows where it is. -/
def PcOk (id : UUID) (clock : DateTime) (row : BillingReport) (stripe : Stripe) : Pc → Prop
  | .idle => True
  | .locked report => report = row
  | .choosing report c params now =>
    report = row ∧ row.requests c = some params ∧ row.attemptedAt c = none ∧ now ≤ clock
  | .chosen report c params now =>
    report = row ∧ params.metadata.ppReportId = id ∧ params.metadata.category = c ∧
      row.attemptedAt c = none ∧ now ≤ clock
  | .scanning report _ => report = row
  | .calling report c x => report = row ∧ x.category = c ∧ Current row x
  | .answered report _ _ => report = row
  | .rejected report c params blamesInvoice =>
    report = row ∧ row.requests c = some params ∧ (blamesInvoice = true → Settled id stripe c)
  | .carrying report c params =>
    report = row ∧ row.requests c = some params ∧ Settled id stripe c

/-! ## The writes of the row -/

/-- A write of the other columns keeps the agreement. -/
theorem Charged.of_row {row' : BillingReport} (h : Charged id clock row stripe)
    (hid : row'.id = row.id) (hreq : row'.requests = row.requests)
    (hatt : row'.attemptedAt = row.attemptedAt) : Charged id clock row' stripe := by
  obtain ⟨hname, hlab, hfly, hpast, hfree, hkept, hone⟩ := h
  refine ⟨hid.trans hname, ?_, ?_, ?_, ?_, ?_, hone⟩
  · rw [hreq]; exact hlab
  · unfold Current; rw [hreq, hatt]; exact hfly
  · rw [hatt]; exact hpast
  · rw [hatt]; exact hfree
  · rw [hatt, hreq]; exact hkept

/-- The requests of the other categories are untouched by a write of one. -/
theorem Current.of_ne {row' : BillingReport} {x : Sent} (h : Current row x)
    (hreq : ∀ d, d ≠ c → row'.requests d = row.requests d)
    (hatt : ∀ d, d ≠ c → row'.attemptedAt d = row.attemptedAt d) (hx : x.category ≠ c) :
    Current row' x := by
  unfold Current
  rw [hreq _ hx, hatt _ hx]
  exact h

/-- **Recording the intent** of a category that has none. -/
theorem Charged.attempt {params : ChargeRequest} {now : DateTime} (h : Charged id clock row stripe)
    (hnone : row.attemptedAt c = none) (hid : params.metadata.ppReportId = id)
    (hcat : params.metadata.category = c) (hnow : now ≤ clock) :
    Charged id clock (row.attempt c params now) stripe := by
  have hreq : ∀ d, d ≠ c → (row.attempt c params now).requests d = row.requests d :=
    fun d hd => Function.update_of_ne hd _ _
  have hatt : ∀ d, d ≠ c → (row.attempt c params now).attemptedAt d = row.attemptedAt d :=
    fun d hd => Function.update_of_ne hd _ _
  -- no intent was ever recorded for `c`, so nothing has been created for it
  have hempty := h.unattempted c hnone
  refine ⟨h.named, fun d q hq => ?_, fun x hx => ?_, fun d t ht => ?_, fun d hd => ?_,
    fun d t q ht hq hne => ?_, h.single⟩
  · by_cases hd : d = c
    · subst hd
      simp only [BillingReport.attempt, Function.update_self, Option.some.injEq] at hq
      exact hq ▸ ⟨hid, hcat⟩
    · rw [hreq d hd] at hq
      exact h.labelled d q hq
  · rcases h.flights x hx with hdead | hcur
    · exact Or.inl hdead
    · refine Or.inr (hcur.of_ne hreq hatt ?_)
      -- a current copy has an intent, and `c` had none
      rintro rfl
      obtain ⟨-, t, ht, -⟩ := hcur
      rw [hnone] at ht
      cases ht
  · by_cases hd : d = c
    · subst hd
      simp only [BillingReport.attempt, Function.update_self, Option.some.injEq] at ht
      exact ht ▸ hnow
    · rw [hatt d hd] at ht
      exact h.attempts d t ht
  · by_cases hdc : d = c
    · exact hdc ▸ hempty
    · rw [hatt d hdc] at hd
      exact h.unattempted d hd
  · by_cases hd : d = c
    · exact absurd (hd ▸ hempty) hne
    · rw [hatt d hd] at ht
      rw [hreq d hd] at hq
      exact h.kept d t q ht hq hne

/-- **Carrying over** a category whose request is settled. -/
theorem Charged.carryOver {params : ChargeRequest} (h : Charged id clock row stripe)
    (hparams : row.requests c = some params) (hset : Settled id stripe c) :
    Charged id clock (row.carryOver c params) stripe := by
  have hreq : ∀ d, d ≠ c → (row.carryOver c params).requests d = row.requests d :=
    fun d hd => Function.update_of_ne hd _ _
  have hatt : ∀ d, d ≠ c → (row.carryOver c params).attemptedAt d = row.attemptedAt d :=
    fun d hd => Function.update_of_ne hd _ _
  have hself : (row.carryOver c params).attemptedAt c = none := Function.update_self _ _ _
  refine ⟨h.named, fun d q hq => ?_, fun x hx => ?_, fun d t ht => ?_, fun d hd => ?_,
    fun d t q ht hq hne => ?_, h.single⟩
  · by_cases hd : d = c
    · subst hd
      simp only [BillingReport.carryOver, Function.update_self, Option.some.injEq] at hq
      exact hq ▸ h.labelled d params hparams
    · rw [hreq d hd] at hq
      exact h.labelled d q hq
  · by_cases hxc : x.category = c
    -- what is still on its way for `c` can no longer be charged
    · exact Or.inl (hset.2 x hx hxc)
    · rcases h.flights x hx with hdead | hcur
      · exact Or.inl hdead
      · exact Or.inr (hcur.of_ne hreq hatt hxc)
  · by_cases hd : d = c
    · rw [hd, hself] at ht
      cases ht
    · rw [hatt d hd] at ht
      exact h.attempts d t ht
  · by_cases hdc : d = c
    · exact hdc ▸ hset.1
    · rw [hatt d hdc] at hd
      exact h.unattempted d hd
  · by_cases hd : d = c
    · rw [hd, hself] at ht
      cases ht
    · rw [hatt d hd] at ht
      rw [hreq d hd] at hq
      exact h.kept d t q ht hq hne

/-! ## The clock, the network and Stripe -/

theorem Charged.tick {clock' : DateTime} (h : Charged id clock row stripe) (hle : clock ≤ clock') :
    Charged id clock' row stripe where
  named := h.named
  labelled := h.labelled
  flights := h.flights
  attempts := fun c t ht => le_trans (h.attempts c t ht) hle
  unattempted := h.unattempted
  kept := fun c t q ht hq hne => (h.kept c t q ht hq hne).imp_right fun hold => le_trans hold hle
  single := h.single

/-- Whatever is on its way is dead or current; fewer, more or repeated copies of such
requests change nothing else. -/
theorem Charged.of_sent {sent : List Sent} (h : Charged id clock row stripe)
    (hsent : ∀ x ∈ sent, x ∈ stripe.sent ∨ Current row x) :
    Charged id clock row { stripe with sent := sent } where
  named := h.named
  labelled := h.labelled
  flights := fun x hx => (hsent x hx).elim (h.flights x) Or.inr
  attempts := h.attempts
  unattempted := h.unattempted
  kept := h.kept
  single := h.single

theorem editable_finalize {params : ChargeRequest} (i : String)
    (h : stripe.editable params = false) :
    Stripe.editable { stripe with draft := Function.update stripe.draft i false } params = false := by
  unfold Stripe.editable at h ⊢
  split at h
  next j hj =>
    simp only
    by_cases hji : j = i
    · rw [hji, Function.update_self]
    · rw [Function.update_of_ne hji, h]
  next hj => cases h

theorem Charged.finalize (h : Charged id clock row stripe) (i : String) :
    Charged id clock row { stripe with draft := Function.update stripe.draft i false } where
  named := h.named
  labelled := h.labelled
  flights := fun x hx => (h.flights x hx).imp_left (editable_finalize i)
  attempts := h.attempts
  unattempted := h.unattempted
  kept := h.kept
  single := h.single

/-- A key is forgotten a day after its first use, hence a day after the intent. -/
theorem Charged.forget (h : Charged id clock row stripe) {key : String} {first : DateTime}
    {item : StripeItem} (hmemo : stripe.memo key = some (first, item))
    (hold : first + keyLifetime ≤ clock) :
    Charged id clock row { stripe with memo := Function.update stripe.memo key none } where
  named := h.named
  labelled := h.labelled
  flights := h.flights
  attempts := h.attempts
  unattempted := h.unattempted
  kept := by
    intro c t q ht hq hne
    rcases h.kept c t q ht hq hne with ⟨f, i, hf, hle⟩ | hlate
    · by_cases hk : q.idempotencyKey = key
      -- the forgotten key is `q`'s: it was first used a day ago, after the intent
      · right
        rw [hk, hmemo] at hf
        cases hf
        linarith
      · left
        refine ⟨f, i, ?_, hle⟩
        change Function.update stripe.memo key none q.idempotencyKey = _
        rw [Function.update_of_ne hk, hf]
    · exact Or.inr hlate
  single := h.single

/-! ### Handling a request -/

/-- **Everything handling a request can do**: it creates nothing and takes requests off
the way, or the key was free and the request editable, and one item is created and
remembered. -/
theorem create_cases (stripe : Stripe) (clock : DateTime) (x : Sent) (verdict : Verdict) :
    (∃ sent, (stripe.create clock x verdict).1 = { stripe with sent := sent } ∧
      sent ⊆ stripe.sent) ∨
    (stripe.memo x.params.idempotencyKey = none ∧ stripe.editable x.params = true ∧
      ∃ item : StripeItem, item.metadata = x.params.metadata ∧
        (stripe.create clock x verdict).1 =
          { stripe with
            memo := Function.update stripe.memo x.params.idempotencyKey (some (clock, item))
            items := item :: stripe.items
            sent := stripe.sent.erase x }) := by
  unfold Stripe.create
  split
  · exact Or.inl ⟨_, rfl, List.erase_subset⟩
  next hmemo =>
    split
    next hopen =>
      cases verdict with
      | accept itemId => exact Or.inr ⟨hmemo, hopen, _, rfl, rfl⟩
      | refuse blames =>
        cases blames with
        | true => exact Or.inl ⟨_, rfl, List.filter_sublist.subset⟩
        | false => exact Or.inl ⟨_, rfl, List.erase_subset⟩
    · exact Or.inl ⟨_, rfl, List.erase_subset⟩

/-- **Everything a rejection that blames the invoice says**: the key was free, and a copy
of the request is left on its way only if the request was not editable. -/
theorem create_blames {x : Sent} {verdict : Verdict} {stripe' : Stripe}
    (h : stripe.create clock x verdict = (stripe', .invalidRequest true)) :
    stripe.memo x.params.idempotencyKey = none ∧
      ∃ sent, stripe' = { stripe with sent := sent } ∧ sent ⊆ stripe.sent ∧
        ∀ y ∈ sent, y.params = x.params → stripe.editable x.params = false := by
  unfold Stripe.create at h
  split at h
  · cases h
  next hmemo =>
    refine ⟨hmemo, ?_⟩
    split at h
    · cases verdict with
      | accept itemId => cases h
      | refuse blames =>
        cases blames with
        | false => cases h
        | true =>
          cases h
          refine ⟨_, rfl, List.filter_sublist.subset, fun y hy hyx => ?_⟩
          have hkey := (List.mem_filter.mp hy).2
          simp [hyx] at hkey
    next hclosed =>
      cases h
      exact ⟨_, rfl, List.erase_subset, fun y _ _ => by simpa using hclosed⟩

/-- A current copy is handled before Stripe may have forgotten its key, so a free key means
that nothing has been created. -/
theorem Charged.uncharged {latency : Int} {x : Sent} (h : Charged id clock row stripe)
    (hlat : latency ≤ DateTime.hours 1) (hcur : Current row x) (hin : clock ≤ x.sentAt + latency)
    (hfree : stripe.memo x.params.idempotencyKey = none) :
    stripe.charges id x.category = [] := by
  obtain ⟨hreq, t, ht, -, hlate⟩ := hcur
  by_contra hne
  rcases h.kept _ t _ ht hreq hne with ⟨f, i, hf, -⟩ | hold
  · rw [hfree] at hf
    cases hf
  · have hwindow : safeRetryAge + DateTime.hours 1 = keyLifetime := rfl
    linarith

/-- The charges of a category after one more item. -/
theorem charges_cons (item : StripeItem) (memo : String → Option (DateTime × StripeItem))
    (sent : List Sent) (id : UUID) (d : UsageCategory) :
    Stripe.charges { stripe with memo := memo, items := item :: stripe.items, sent := sent } id d =
      if item.metadata.ppReportId = id ∧ item.metadata.category = d then
        item :: stripe.charges id d
      else stripe.charges id d := by
  simp [Stripe.charges, List.filter_cons]

/-- **Stripe handling a request keeps the agreement.** -/
theorem Charged.create {latency : Int} {x : Sent} {verdict : Verdict}
    (h : Charged id clock row stripe) (hlat : latency ≤ DateTime.hours 1) (hx : x ∈ stripe.sent)
    (hin : clock ≤ x.sentAt + latency) :
    Charged id clock row (stripe.create clock x verdict).1 := by
  rcases create_cases stripe clock x verdict with ⟨sent, he, hsub⟩ | ⟨hfree, hopen, item, hmeta, he⟩
  · rw [he]
    exact h.of_sent fun y hy => Or.inl (hsub hy)
  · rw [he]
    -- a dead copy is not editable, so one that creates an item is current
    have hcur : Current row x := by
      rcases h.flights x hx with hdead | hcur
      · rw [Dead, hopen] at hdead
        cases hdead
      · exact hcur
    -- and no item had been created before it
    have hempty := h.uncharged hlat hcur hin hfree
    obtain ⟨hreq, t, ht, -, -⟩ := hcur
    have hid : item.metadata.ppReportId = id := hmeta ▸ (h.labelled _ _ hreq).1
    have hcat : item.metadata.category = x.category := congrArg ChargeMetadata.category hmeta
    have hother : ∀ d, d ≠ x.category → Stripe.charges { stripe with
        memo := Function.update stripe.memo x.params.idempotencyKey (some (clock, item))
        items := item :: stripe.items
        sent := stripe.sent.erase x } id d = stripe.charges id d := by
      intro d hd
      rw [charges_cons, if_neg fun hmem => hd (hmem.2.symm.trans hcat)]
    refine ⟨h.named, h.labelled, fun y hy => h.flights y (List.erase_subset hy), h.attempts,
      fun d hd => ?_, fun d t' q ht' hq hne => ?_, fun d => ?_⟩
    · have hdx : d ≠ x.category := by
        rintro rfl
        rw [ht] at hd
        cases hd
      rw [hother d hdx]
      exact h.unattempted d hd
    · by_cases hkey : q.idempotencyKey = x.params.idempotencyKey
      -- the key is remembered from now on, which is not before the intent
      · refine Or.inl ⟨clock, item, ?_, h.attempts d t' ht'⟩
        change Function.update stripe.memo _ _ q.idempotencyKey = _
        rw [hkey, Function.update_self]
      · have hdx : d ≠ x.category := by
          rintro rfl
          rw [hreq] at hq
          cases hq
          exact hkey rfl
        rw [hother d hdx] at hne
        refine (h.kept d t' q ht' hq hne).imp_left fun ⟨f, i, hf, hle⟩ => ⟨f, i, ?_, hle⟩
        change Function.update stripe.memo _ _ q.idempotencyKey = _
        rw [Function.update_of_ne hkey, hf]
    · by_cases hdx : d = x.category
      · rw [hdx, charges_cons, if_pos ⟨hid, hcat⟩, hempty]
        exact le_refl 1
      · rw [hother d hdx]
        exact h.single d

/-! ## The workers -/

theorem Settled.of_sent {sent : List Sent} (h : Settled id stripe c)
    (hsent : ∀ x ∈ sent, x ∈ stripe.sent) : Settled id { stripe with sent := sent } c :=
  ⟨h.1, fun x hx => h.2 x (hsent x hx)⟩

theorem Settled.create {x : Sent} {verdict : Verdict} (h : Settled id stripe c)
    (hx : x ∈ stripe.sent) : Settled id (stripe.create clock x verdict).1 c := by
  rcases create_cases stripe clock x verdict with ⟨sent, he, hsub⟩ | ⟨-, hopen, item, hmeta, he⟩
  · rw [he]
    exact h.of_sent fun y hy => hsub hy
  · rw [he]
    have hne : x.category ≠ c := by
      intro hxc
      have hdead := h.2 x hx hxc
      rw [Dead, hopen] at hdead
      cases hdead
    refine ⟨?_, fun y hy => h.2 y (List.erase_subset hy)⟩
    rw [charges_cons, if_neg]
    · exact h.1
    · rintro ⟨-, hmem⟩
      exact hne ((congrArg ChargeMetadata.category hmeta).symm.trans hmem)

/-- **A rejection that blames the invoice settles its category.** -/
theorem settled_of_blames {latency : Int} {x : Sent} {verdict : Verdict} {stripe' : Stripe}
    (h : Charged id clock row stripe) (hlat : latency ≤ DateTime.hours 1)
    (hin : clock ≤ x.sentAt + latency) (hcur : Current row x)
    (hcreate : stripe.create clock x verdict = (stripe', .invalidRequest true)) :
    Settled id stripe' x.category := by
  obtain ⟨hfree, sent, rfl, hsub, hleft⟩ := create_blames hcreate
  refine ⟨h.uncharged hlat hcur hin hfree, fun y hy hyx => ?_⟩
  rcases h.flights y (hsub hy) with hdead | hycur
  · exact hdead
  · have hsame : y.params = x.params := by
      have hreq := hycur.1
      rw [hyx, hcur.1] at hreq
      exact (Option.some.inj hreq).symm
    change stripe.editable y.params = false
    rw [hsame]
    exact hleft y hy hsame

theorem Settled.finalize (h : Settled id stripe c) (i : String) :
    Settled id { stripe with draft := Function.update stripe.draft i false } c :=
  ⟨h.1, fun x hx hxc => editable_finalize i (h.2 x hx hxc)⟩

/-- What a worker knows outlasts everything that settles no more than before. -/
theorem PcOk.mono {clock' : DateTime} {stripe' : Stripe} {p : Pc} (h : PcOk id clock row stripe p)
    (hle : clock ≤ clock') (hset : ∀ c, Settled id stripe c → Settled id stripe' c) :
    PcOk id clock' row stripe' p := by
  cases p with
  | idle => trivial
  | locked report => exact h
  | choosing report c params now =>
    obtain ⟨h1, h2, h3, h4⟩ := h
    exact ⟨h1, h2, h3, le_trans h4 hle⟩
  | chosen report c params now =>
    obtain ⟨h1, h2, h3, h4, h5⟩ := h
    exact ⟨h1, h2, h3, h4, le_trans h5 hle⟩
  | scanning report c => exact h
  | calling report c x => exact h
  | answered report c item => exact h
  | rejected report c params blames => exact ⟨h.1, h.2.1, fun hb => hset c (h.2.2 hb)⟩
  | carrying report c params => exact ⟨h.1, h.2.1, hset c h.2.2⟩

/-- **The invariant.** -/
structure Safe (id : UUID) (s : Delivery) : Prop where
  charged : Charged id s.clock s.row s.stripe
  exclusive : ∀ w, s.pc w ≠ .idle → s.holder = some w
  pcs : ∀ w, PcOk id s.clock s.row s.stripe (s.pc w)

variable {s s' : Delivery} {w : Nat}

/-- While one worker has the row, every other one is idle. -/
theorem Safe.idle_of_ne (h : Safe id s) (hw : s.pc w ≠ .idle) {v : Nat} (hv : v ≠ w) :
    s.pc v = .idle := by
  by_contra hne
  have := (h.exclusive v hne).symm.trans (h.exclusive w hw)
  exact hv (Option.some.inj this)

theorem Safe.goto {p : Pc} (h : Safe id s) (hw : s.pc w ≠ .idle)
    (hp : PcOk id s.clock s.row s.stripe p) : Safe id (s.goto w p) where
  charged := h.charged
  exclusive := by
    intro v hv
    by_cases hvw : v = w
    · rw [hvw]
      exact h.exclusive w hw
    · change Function.update s.pc w p v ≠ .idle at hv
      rw [Function.update_of_ne hvw] at hv
      exact h.exclusive v hv
  pcs := (Function.forall_update_iff s.pc (fun _ q => PcOk id s.clock s.row s.stripe q)).mpr
    ⟨hp, fun v _ => h.pcs v⟩

/-- A transaction that ends leaves every worker idle, and the row as it wrote it. -/
theorem Safe.release {r : BillingReport} (h : Safe id s) (hw : s.pc w ≠ .idle)
    (hr : Charged id s.clock r s.stripe) : Safe id (s.release w r) := by
  have hidle : ∀ v, (s.release w r).pc v = .idle := by
    intro v
    change Function.update s.pc w .idle v = .idle
    by_cases hvw : v = w
    · rw [hvw, Function.update_self]
    · rw [Function.update_of_ne hvw]
      exact h.idle_of_ne hw hvw
  exact ⟨hr, fun v hv => absurd (hidle v) hv, fun v => by rw [hidle v]; trivial⟩

/-- A step of the clock or of Stripe. -/
theorem Safe.outside {clock : DateTime} {stripe : Stripe} (h : Safe id s)
    (hc : Charged id clock s.row stripe) (hle : s.clock ≤ clock)
    (hset : ∀ c, Settled id s.stripe c → Settled id stripe c) :
    Safe id { s with clock := clock, stripe := stripe } :=
  ⟨hc, h.exclusive, fun v => (h.pcs v).mono hle hset⟩

/-! ## Steps -/

theorem safe_lock (h : Safe id s) (hs : s.lock w = some s') : Safe id s' := by
  unfold lock at hs
  split at hs
  next hpc hholder =>
    cases hs
    -- the lock is free, so no worker is inside the loop
    have hidle : ∀ v, s.pc v = .idle := by
      intro v
      by_contra hne
      rw [h.exclusive v hne] at hholder
      cases hholder
    refine ⟨h.charged, fun v hv => ?_, fun v => ?_⟩
    · by_cases hvw : v = w
      · rw [hvw]
      · simp [Function.update_of_ne hvw, hidle v] at hv
    · by_cases hvw : v = w
      · subst hvw
        simp only [Function.update_self]
        exact rfl
      · simp only [Function.update_of_ne hvw, hidle v]
        trivial
  · cases hs

/-- The loop body up to its first call outside. -/
theorem safe_start {report : BillingReport} (h : Safe id s) (hpc : s.pc w = .locked report) :
    Safe id (s.start w report) := by
  have hw : s.pc w ≠ .idle := by rw [hpc]; nofun
  have hreport : report = s.row := by simpa [PcOk, hpc] using h.pcs w
  subst hreport
  unfold start
  split
  · exact h.release hw h.charged
  · split
    · exact h.release hw (h.charged.of_row rfl rfl rfl)
    next c _ =>
      split
      · exact h.release hw h.charged
      next params hparams =>
        split
        next hatt => exact h.goto hw ⟨rfl, hparams, hatt, le_refl _⟩
        next t hatt =>
          split
          · exact h.goto hw rfl
          next hyoung =>
            have hcat : Sent.category ⟨params, s.clock⟩ = c := (h.charged.labelled c params hparams).2
            have hcur : Current s.row ⟨params, s.clock⟩ := by
              refine ⟨hcat ▸ hparams, t, hcat ▸ hatt, h.charged.attempts c t hatt, ?_⟩
              change s.clock < t + safeRetryAge
              linarith [not_le.mp hyoung]
            have hsend : Charged id s.clock s.row
                { s.stripe with sent := ⟨params, s.clock⟩ :: s.stripe.sent } := by
              refine h.charged.of_sent fun x hx => ?_
              rcases List.mem_cons.mp hx with rfl | hx
              · exact Or.inr hcur
              · exact Or.inl hx
            -- the sender is the only worker in a transaction, so nobody knows of a settled category
            have hsafe : Safe id { s with
                stripe := { s.stripe with sent := ⟨params, s.clock⟩ :: s.stripe.sent } } := by
              refine ⟨hsend, h.exclusive, fun v => ?_⟩
              by_cases hvw : v = w
              · rw [hvw]
                change PcOk id _ _ _ (s.pc w)
                rw [hpc]
                exact rfl
              · change PcOk id _ _ _ (s.pc v)
                rw [h.idle_of_ne hw hvw]
                trivial
            exact hsafe.goto hw ⟨rfl, hcat, hcur⟩

theorem safe_retrieve (h : Safe id s) (hs : s.retrieve w = some s') : Safe id s' := by
  unfold retrieve at hs
  split at hs
  next report c params now hpc =>
    cases hs
    have hw : s.pc w ≠ .idle := by rw [hpc]; nofun
    obtain ⟨hrow, hreq, hatt, hnow⟩ : PcOk id _ _ _ (.choosing report c params now) := hpc ▸ h.pcs w
    obtain ⟨hid, hcat⟩ := h.charged.labelled c params hreq
    refine h.goto hw ⟨hrow, ?_, ?_, hatt, hnow⟩
    · split
      · exact hid
      · exact hid
    · split
      · exact hcat
      · exact hcat
  · cases hs

theorem safe_commitIntent {sub : Option Subscription} (h : Safe id s)
    (hs : s.commitIntent w sub = some s') : Safe id s' := by
  unfold commitIntent at hs
  split at hs
  next report c params now hpc =>
    have hw : s.pc w ≠ .idle := by rw [hpc]; nofun
    obtain ⟨rfl, hid, hcat, hatt, hnow⟩ : PcOk id _ _ _ (.chosen report c params now) := hpc ▸ h.pcs w
    split at hs
    · cases hs
      exact h.release hw (h.charged.of_row rfl rfl rfl)
    · cases hs
      exact h.release hw (h.charged.attempt hatt hid hcat hnow)
  · cases hs

theorem safe_scan {listed : List StripeItem} (h : Safe id s) (hs : s.scan w listed = some s') :
    Safe id s' := by
  unfold scan at hs
  split at hs
  next report c hpc =>
    have hw : s.pc w ≠ .idle := by rw [hpc]; nofun
    obtain rfl : PcOk id _ _ _ (.scanning report c) := hpc ▸ h.pcs w
    split at hs
    · split at hs <;> cases hs <;> exact h.release hw (h.charged.of_row rfl rfl rfl)
    · cases hs
  · cases hs

theorem safe_record (h : Safe id s) (hs : s.record w = some s') : Safe id s' := by
  unfold record at hs
  split at hs
  next report c item hpc =>
    cases hs
    have hw : s.pc w ≠ .idle := by rw [hpc]; nofun
    obtain rfl : PcOk id _ _ _ (.answered report c item) := hpc ▸ h.pcs w
    exact h.release hw (h.charged.of_row rfl rfl rfl)
  · cases hs

theorem safe_resolve (h : Safe id s) (hs : s.resolve w = some s') : Safe id s' := by
  unfold resolve at hs
  split at hs
  next report c params blames hpc =>
    have hw : s.pc w ≠ .idle := by rw [hpc]; nofun
    obtain ⟨hrow, hreq, hset⟩ : PcOk id _ _ _ (.rejected report c params blames) := hpc ▸ h.pcs w
    split at hs
    next hblame =>
      cases hs
      exact h.goto hw ⟨hrow, hreq, hset hblame.1⟩
    · cases hs
      exact h.release hw h.charged
  · cases hs

theorem safe_carry (h : Safe id s) (hs : s.carry w = some s') : Safe id s' := by
  unfold carry at hs
  split at hs
  next report c params hpc =>
    cases hs
    have hw : s.pc w ≠ .idle := by rw [hpc]; nofun
    obtain ⟨rfl, hreq, hset⟩ : PcOk id _ _ _ (.carrying report c params) := hpc ▸ h.pcs w
    exact h.release hw (h.charged.carryOver hreq hset)
  · cases hs

theorem safe_crash (h : Safe id s) (hs : s.crash w = some s') : Safe id s' := by
  unfold crash at hs
  split at hs
  · cases hs
  next hpc =>
    cases hs
    exact h.release hpc h.charged

theorem safe_noteError {message : String} (h : Safe id s) (hs : s.noteError message = some s') :
    Safe id s' := by
  unfold noteError at hs
  split at hs
  next hholder =>
    have hidle : ∀ v, s.pc v = .idle := by
      intro v
      by_contra hne
      rw [h.exclusive v hne] at hholder
      cases hholder
    split at hs
    · cases hs
      refine ⟨h.charged.of_row rfl rfl rfl, h.exclusive, fun v => ?_⟩
      change PcOk id _ _ _ (s.pc v)
      rw [hidle v]
      trivial
    · cases hs
      exact h
  · cases hs

/-- **Stripe handles a request**, and a worker that waits for it may get the response. -/
theorem safe_handle {latency : Int} {x : Sent} {verdict : Verdict} {receiver : Option Nat}
    (hlat : latency ≤ DateTime.hours 1) (h : Safe id s)
    (hs : s.handle latency x verdict receiver = some s') : Safe id s' := by
  unfold handle at hs
  split at hs
  next hguard =>
    obtain ⟨hx, hin⟩ := hguard
    generalize hcreate : s.stripe.create s.clock x verdict = result at hs
    obtain ⟨stripe, response⟩ := result
    simp only at hs
    have hstripe : stripe = (s.stripe.create s.clock x verdict).1 := by rw [hcreate]
    -- first Stripe alone, then the worker that gets the response
    have hsafe : Safe id { s with stripe := stripe } := by
      refine @Safe.outside id s s.clock _ h ?_ (le_refl _) fun c hset => ?_
      · rw [hstripe]
        exact h.charged.create hlat hx hin
      · rw [hstripe]
        exact hset.create hx
    cases receiver with
    | none => cases hs; exact hsafe
    | some w =>
      simp only [respond] at hs
      split at hs
      next report c request hpc =>
        split at hs
        next hrequest =>
          subst hrequest
          have hw : s.pc w ≠ .idle := by rw [hpc]; nofun
          obtain ⟨hrow, hcat, hcur⟩ : PcOk id _ _ _ (.calling report c request) := hpc ▸ h.pcs w
          cases response with
          | item item =>
            cases hs
            exact hsafe.goto hw hrow
          | invalidRequest blames =>
            cases hs
            -- only a rejection that blames the invoice settles the request
            refine hsafe.goto hw ⟨hrow, hcat ▸ hcur.1, fun hblames => ?_⟩
            subst hblames
            exact hcat ▸ settled_of_blames h.charged hlat hin hcur hcreate
        · cases hs
      · cases hs
  · cases hs

/-- **One step keeps the invariant.** -/
theorem safe_step {latency : Int} {a : DeliveryAct} (hlat : latency ≤ DateTime.hours 1)
    (h : Safe id s) (hs : s.step latency a = some s') : Safe id s' := by
  cases a with
  | tick d =>
    cases hs
    have hle : s.clock ≤ s.clock + d := le_add_of_nonneg_right (Int.natCast_nonneg d)
    exact h.outside (h.charged.tick hle) hle fun c hset => hset
  | lock w => exact safe_lock h hs
  | begin w =>
    simp only [step] at hs
    split at hs
    next report hpc =>
      cases hs
      exact safe_start h hpc
    · cases hs
  | retrieve w => exact safe_retrieve h hs
  | commitIntent w sub => exact safe_commitIntent h hs
  | scan w listed => exact safe_scan h hs
  | record w => exact safe_record h hs
  | resolve w => exact safe_resolve h hs
  | carry w => exact safe_carry h hs
  | crash w => exact safe_crash h hs
  | noteError message => exact safe_noteError h hs
  | repeatSent x =>
    simp only [step] at hs
    split at hs
    next hx =>
      cases hs
      -- a repeated request is a copy of one already on its way
      have hmem : ∀ y ∈ x :: s.stripe.sent, y ∈ s.stripe.sent := by
        intro y hy
        rcases List.mem_cons.mp hy with rfl | hy
        · exact hx
        · exact hy
      exact h.outside (h.charged.of_sent fun y hy => Or.inl (hmem y hy)) (le_refl _)
        fun c hset => hset.of_sent hmem
    · cases hs
  | handle x verdict receiver => exact safe_handle hlat h hs
  | finalize i =>
    cases hs
    exact h.outside (h.charged.finalize i) (le_refl _) fun c hset => hset.finalize i
  | forget key =>
    simp only [step] at hs
    split at hs
    next first item hmemo =>
      split at hs
      next hold =>
        cases hs
        exact h.outside (h.charged.forget hmemo hold) (le_refl _) fun c hset => hset
      · cases hs
    · cases hs

/-- A report that has just been staged. -/
theorem safe_of_staged (h : Staged s) : Safe s.row.id s := by
  obtain ⟨usage, previous, args, customer, hrow⟩ := h.row
  have hatt : ∀ c, s.row.attemptedAt c = none := fun c => by rw [hrow]; rfl
  have hnone : ∀ c, s.stripe.charges s.row.id c = [] := by
    intro c
    refine List.filter_eq_nil_iff.mpr fun x hx => ?_
    have := h.uncharged x hx
    simp [this]
  refine ⟨⟨rfl, ?_, ?_, ?_, fun c _ => hnone c, ?_, fun c => ?_⟩, fun w hw => ?_, fun w => ?_⟩
  · intro c q hq
    rw [hrow] at hq ⊢
    simp only [stageReport, stageRequest] at hq
    split at hq
    · cases hq
    · cases hq
      exact ⟨rfl, rfl⟩
  · rw [h.unsent]
    exact fun x hx => absurd hx List.not_mem_nil
  · intro c t ht
    rw [hatt c] at ht
    cases ht
  · intro c t q ht
    rw [hatt c] at ht
    cases ht
  · rw [hnone c]
    exact Nat.zero_le 1
  · exact absurd (h.idle w) hw
  · rw [h.idle w]
    trivial

/-- **At most one charge per report and category.**  Any number of workers deliver a staged
report, with crashes, lost and repeated requests, late responses and retries at any
time; requests reach Stripe within an hour.  In every state reached, Stripe has at most
one invoice item for each category of the report. -/
theorem charges_at_most_one {latency : Int} (hlat : latency ≤ DateTime.hours 1) {s₀ s : Delivery}
    (hstart : Staged s₀)
    (hreach : GuardedRun.Reach (fun s a => s.step latency a) GuardedRun.Always s₀ s)
    (c : UsageCategory) : (s.stripe.charges s₀.row.id c).length ≤ 1 := by
  have hsafe : Safe s₀.row.id s :=
    hreach.invariant (safe_of_staged hstart) fun _ _ _ hsafe _ hs => safe_step hlat hsafe hs
  exact hsafe.charged.single c

/-- A report for ten traces above the allowance of Pro, just staged for the draft invoice
`in`. -/
def staged : Delivery :=
  let sub : Subscription :=
    ⟨"org", .pro, .active, some "cus", some "sub", 0, DateTime.days 30, none⟩
  let usage : UsageRecord :=
    ⟨"org", 0, DateTime.days 30, fun c => if c = .traces then 5010 else 0, fun _ => 0, false, none⟩
  ⟨0, stageReport usage [] ⟨sub, some "in", none, false, "rep", 0⟩ "cus", none, fun _ => .idle,
    ⟨fun _ => true, fun _ => none, [], []⟩⟩

/-- Its one request, sent at an instant. -/
def stagedRequest (sentAt : DateTime) : Sent :=
  ⟨(staged.row.requests .traces).get (by decide), sentAt⟩

/-- A worker commits the intent and sends; Stripe accepts, but the response is lost and
the worker crashes.  An hour later another worker repeats the request and records the
item. -/
def lostResponse : List DeliveryAct :=
  [.lock 0, .begin 0, .retrieve 0, .commitIntent 0 none, .lock 0, .begin 0,
    .handle (stagedRequest 0) (.accept "ii_1") none, .crash 0, .tick 3600000000,
    .lock 1, .begin 1, .handle (stagedRequest (DateTime.hours 1)) (.accept "ii_2") (some 1),
    .record 1]

/-- The repeated request returns the first item: Stripe has one, and the report records
it. -/
theorem charges_at_most_one_lost_response :
    ∃ s, GuardedRun.run (fun s a => s.step (DateTime.seconds 60) a) staged lostResponse = some s ∧
      (s.row.stripeItemIds .traces = some "ii_1") ∧
      (s.stripe.charges staged.row.id .traces).length ≤ 1 := by
  have hrun : (GuardedRun.run (fun s a => s.step (DateTime.seconds 60) a) staged
      lostResponse).map (fun s => s.row.stripeItemIds .traces) = some (some "ii_1") := by
    decide +kernel
  obtain ⟨s, hs, hitem⟩ := Option.map_eq_some_iff.mp hrun
  have hstaged : Staged staged :=
    ⟨⟨_, _, _, _, rfl⟩, rfl, fun _ => rfl, rfl, fun x hx => absurd hx List.not_mem_nil⟩
  exact ⟨s, hs, hitem,
    charges_at_most_one (by decide) hstaged (GuardedRun.reach_of_run hs) .traces⟩

end Delivery
end PandaProbe
