import PandaProbe.DeliverLoop

/-! # One idempotency key, one request

The parameters of a charge change twice at most: the invoice is dropped before the first attempt,
under the same key, or after a rejection, under a key of its own.  Stripe refuses a key that
comes back with other parameters.

`one_key_one_request` is the main result: in every run all creates under one key are the same
request.  The reason is in `Frozen`: a key that has been used is the key of the row's request,
which has its intent recorded and does not change any more, or the row has left it for good.
-/
namespace PandaProbe
namespace DeliverLoop

/-- The key of a charge that has been carried over. -/
def carriedKey (id : UUID) (c : UsageCategory) : String := idempotencyKey id c ++ ":carryover"

/-- What Stripe refuses: the key has been used with other parameters. -/
def keyReuse (created : List ChargeRequest) (q : ChargeRequest) : Bool :=
  created.any (fun x => x.idempotencyKey = q.idempotencyKey ∧ x ≠ q)

/-! ## The keys of a report -/

theorem carriedKey_ne {id : UUID} {c d : UsageCategory} : carriedKey id c ≠ idempotencyKey id d := by
  intro h
  simp only [carriedKey, idempotencyKey, String.append_assoc, String.append_right_inj] at h
  revert h
  cases c <;> cases d <;> decide

theorem idempotencyKey_inj {id : UUID} {c d : UsageCategory}
    (h : idempotencyKey id c = idempotencyKey id d) : c = d := by
  simp only [idempotencyKey, String.append_assoc, String.append_right_inj] at h
  revert h
  cases c <;> cases d <;> decide

theorem carriedKey_inj {id : UUID} {c d : UsageCategory}
    (h : carriedKey id c = carriedKey id d) : c = d :=
  idempotencyKey_inj (String.append_left_inj _ |>.mp h)

/-- The request has the key it was staged with, or it has been carried over and names no
invoice. -/
def Keyed (id : UUID) (c : UsageCategory) (q : ChargeRequest) : Prop :=
  q.idempotencyKey = idempotencyKey id c ∨
    q.idempotencyKey = carriedKey id c ∧ truthy q.invoice = none

/-- A key belongs to one category. -/
theorem Keyed.category {id : UUID} {c d : UsageCategory} {q r : ChargeRequest} (hq : Keyed id c q)
    (hr : Keyed id d r) (h : q.idempotencyKey = r.idempotencyKey) : c = d := by
  rcases hq with hq | ⟨hq, -⟩ <;> rcases hr with hr | ⟨hr, -⟩ <;> rw [hq, hr] at h
  · exact idempotencyKey_inj h
  · exact absurd h.symm carriedKey_ne
  · exact absurd h carriedKey_ne
  · exact carriedKey_inj h

/-! ## The invariant -/

/-- **The row and the creates agree.** -/
structure Frozen (id : UUID) (row : BillingReport) (created : List ChargeRequest) : Prop where
  keyed : ∀ c q, row.requests c = some q → Keyed id c q
  current : ∀ x ∈ created, ∀ c q, row.requests c = some q →
    x.idempotencyKey = q.idempotencyKey → x = q ∧ (row.attemptedAt c).isSome
  uncarried : ∀ x ∈ created, ∀ c q, row.requests c = some q →
    q.idempotencyKey = idempotencyKey id c → x.idempotencyKey ≠ carriedKey id c
  single : ∀ x ∈ created, ∀ y ∈ created, x.idempotencyKey = y.idempotencyKey → x = y

variable {id : UUID} {row row' : BillingReport} {created : List ChargeRequest}

theorem Frozen.of_eq (h : Frozen id row created) (hreq : row'.requests = row.requests)
    (hatt : row'.attemptedAt = row.attemptedAt) : Frozen id row' created := by
  obtain ⟨hkeyed, hcurrent, huncarried, hsingle⟩ := h
  refine ⟨?_, ?_, ?_, hsingle⟩
  · rw [hreq]; exact hkeyed
  · rw [hreq, hatt]; exact hcurrent
  · rw [hreq]; exact huncarried

/-- **The request of one category is written**: its key is one that no create has used. -/
theorem Frozen.write {c : UsageCategory} {q : ChargeRequest} (h : Frozen id row created)
    (hreq : row'.requests = Function.update row.requests c (some q))
    (hatt : ∀ d, d ≠ c → row'.attemptedAt d = row.attemptedAt d) (hq : Keyed id c q)
    (hfresh : ∀ x ∈ created, x.idempotencyKey ≠ q.idempotencyKey)
    (huncarried : q.idempotencyKey = idempotencyKey id c →
      ∀ x ∈ created, x.idempotencyKey ≠ carriedKey id c) : Frozen id row' created where
  keyed := by
    rw [hreq]
    intro d r hr
    by_cases hd : d = c
    · subst hd
      rw [Function.update_self] at hr
      cases hr
      exact hq
    · rw [Function.update_of_ne hd] at hr
      exact h.keyed d r hr
  current := by
    rw [hreq]
    intro x hx d r hr hkey
    by_cases hd : d = c
    · subst hd
      rw [Function.update_self] at hr
      cases hr
      exact absurd hkey (hfresh x hx)
    · rw [Function.update_of_ne hd] at hr
      rw [hatt d hd]
      exact h.current x hx d r hr hkey
  uncarried := by
    rw [hreq]
    intro x hx d r hr hkey
    by_cases hd : d = c
    · subst hd
      rw [Function.update_self] at hr
      cases hr
      exact huncarried hkey x hx
    · rw [Function.update_of_ne hd] at hr
      exact h.uncarried x hx d r hr hkey
  single := h.single

/-- **Every write of a transaction comes with an unused key, or leaves the request as it is.** -/
theorem Frozen.wrote (h : Frozen id row created) (hwrote : Wrote row row') :
    Frozen id row' created := by
  cases hwrote with
  | other hsame => exact h.of_eq hsame.1 hsame.2.1
  | @attempted c q params now hopen hnone hparams =>
    have hkey : params.idempotencyKey = q.idempotencyKey := by rcases hparams with rfl | rfl <;> rfl
    refine h.write rfl (fun d hd => Function.update_of_ne hd _ _) ?_ (fun x hx hxq => ?_)
      fun hbase x hx => ?_
    · rcases h.keyed c q hopen.1 with hq | ⟨hq, hinvoice⟩
      · exact .inl (hkey.trans hq)
      · refine .inr ⟨hkey.trans hq, ?_⟩
        rcases hparams with rfl | rfl
        · exact hinvoice
        · rfl
    -- a create under this key would have its intent recorded
    · have hsome := (h.current x hx c q hopen.1 (hxq.trans hkey)).2
      rw [hnone] at hsome
      cases hsome
    · exact h.uncarried x hx c q hopen.1 (hkey.symm.trans hbase)
  | @carried c q hopen hatt hinvoice =>
    -- the request names an invoice, so it has not been carried over before
    have hq : q.idempotencyKey = idempotencyKey id c := by
      rcases h.keyed c q hopen.1 with hq | ⟨-, hnone⟩
      · exact hq
      · rw [hnone] at hinvoice
        cases hinvoice
    have hkey : q.carryover.idempotencyKey = carriedKey id c := by
      rw [carriedKey, ← hq]
      rfl
    refine h.write rfl (fun d hd => Function.update_of_ne hd _ _) (.inr ⟨hkey, rfl⟩)
      (fun x hx => ?_) fun hbase => ?_
    · rw [hkey]
      exact h.uncarried x hx c q hopen.1 hq
    · rw [hkey] at hbase
      exact absurd hbase carriedKey_ne
  | recorded => exact h.of_eq rfl rfl

/-- **A create under the key of the row's request.** -/
theorem Frozen.create {c : UsageCategory} {q : ChargeRequest} (h : Frozen id row created)
    (hq : row.requests c = some q) (hatt : (row.attemptedAt c).isSome) :
    Frozen id row (q :: created) where
  keyed := h.keyed
  current := by
    intro x hx d r hr hkey
    rcases List.mem_cons.mp hx with rfl | hx
    · obtain rfl := (h.keyed c x hq).category (h.keyed d r hr) hkey
      rw [hq] at hr
      exact ⟨Option.some.inj hr, hatt⟩
    · exact h.current x hx d r hr hkey
  uncarried := by
    intro x hx d r hr hbase hcarried
    rcases List.mem_cons.mp hx with rfl | hx
    · rcases h.keyed c x hq with hkey | ⟨hkey, -⟩
      · exact carriedKey_ne (hcarried.symm.trans hkey)
      · obtain rfl := carriedKey_inj (hkey.symm.trans hcarried)
        rw [hq] at hr
        cases hr
        exact carriedKey_ne (hcarried.symm.trans hbase)
    · exact h.uncarried x hx d r hr hbase hcarried
  single := by
    intro x hx y hy hkey
    rcases List.mem_cons.mp hx with rfl | hxc <;> rcases List.mem_cons.mp hy with rfl | hyc
    · rfl
    · exact (h.current y hyc c x hq hkey.symm).1.symm
    · exact (h.current x hxc c y hq hkey).1
    · exact h.single x hxc y hyc hkey

/-! ## Runs -/

variable {m m' : Delivery} {a : DeliveryAct}

theorem Turn.wrote (h : Turn m a m') : Wrote m.row m'.row := by
  cases h with
  | outside _ _ _ hrow =>
    rcases hrow with hrow | ⟨-, hsame⟩
    · exact .other (hrow ▸ .refl _)
    · exact .other hsame
  | locks _ _ _ hrow => exact .other (hrow ▸ .refl _)
  | moves _ _ hrow => exact .other (hrow ▸ .refl _)
  | ends _ _ _ hwrote => exact hwrote

/-- A step sends nothing, or the request of the row, with its intent recorded. -/
theorem Turn.sends_cases (h : Turn m a m') : sends m' a = [] ∨
    ∃ c q, sends m' a = [q] ∧ m'.row.requests c = some q ∧ (m'.row.attemptedAt c).isSome := by
  cases a with
  | begin w =>
    cases h with
    | outside hnone => cases hnone
    | locks hlock => cases hlock
    | @moves v p hv hpc hrow _ _ _ _ hp =>
      cases hv
      simp only [sends, hpc, Function.update_self]
      cases p with
      | calling report c request =>
        obtain ⟨-, hopen, hatt⟩ := hp
        exact .inr ⟨c, request.params, rfl, hrow ▸ hopen.1, hrow ▸ hatt⟩
      | _ => exact .inl rfl
    | @ends v hv _ _ _ _ _ hpc =>
      cases hv
      simp only [sends, hpc, Function.update_self]
      exact .inl trivial
  | _ => exact .inl rfl

/-- What is on its way to Stripe was on its way before, or has just been sent. -/
theorem sent_start {w : Nat} {report : BillingReport} {x : Sent}
    (hx : x ∈ (m.start w report).stripe.sent) :
    x ∈ m.stripe.sent ∨ x.params ∈ sends (m.start w report) (.begin w) := by
  revert hx
  unfold Delivery.start
  split
  · exact .inl
  · split
    · exact .inl
    · split
      · exact .inl
      · split
        · exact .inl
        · split
          · exact .inl
          · intro hx
            rcases List.mem_cons.mp hx with rfl | hx
            · right
              simp [sends, Delivery.goto]
            · exact .inl hx

theorem sent_handle {latency : Int} {x : Sent} {verdict : Verdict} {receiver : Option Nat}
    (hs : m.handle latency x verdict receiver = some m') : m'.stripe.sent ⊆ m.stripe.sent := by
  have hcreate : (m.stripe.create m.clock x verdict).1.sent ⊆ m.stripe.sent := by
    rcases Delivery.create_cases m.stripe m.clock x verdict with ⟨sent, he, hsub⟩ | ⟨-, -, item, -, he⟩
    · rw [he]
      exact hsub
    · rw [he]
      exact List.erase_subset
  unfold Delivery.handle at hs
  split at hs
  · generalize m.stripe.create m.clock x verdict = result at hs hcreate
    obtain ⟨stripe, response⟩ := result
    cases receiver with
    | none =>
      cases hs
      exact hcreate
    | some w =>
      simp only [Delivery.respond] at hs
      split at hs
      · split at hs
        · cases response <;> cases hs <;> exact hcreate
        · cases hs
      · cases hs
  · cases hs

theorem sent_step {latency : Int} (hs : m.step latency a = some m') {x : Sent}
    (hx : x ∈ m'.stripe.sent) : x ∈ m.stripe.sent ∨ x.params ∈ sends m' a := by
  cases a with
  | begin w =>
    simp only [Delivery.step] at hs
    split at hs
    · cases hs
      exact sent_start hx
    · cases hs
  | handle y verdict receiver => exact .inl (sent_handle hs hx)
  | repeatSent y =>
    simp only [Delivery.step] at hs
    split at hs
    next hy =>
      cases hs
      rcases List.mem_cons.mp hx with rfl | hx
      · exact .inl hy
      · exact .inl hx
    · cases hs
  | _ =>
    left
    simp only [Delivery.step, Delivery.lock, Delivery.retrieve, Delivery.commitIntent,
      Delivery.scan, Delivery.record, Delivery.resolve, Delivery.carry, Delivery.crash,
      Delivery.noteError] at hs
    repeat' split at hs
    all_goals cases hs
    all_goals exact hx

/-- **The invariant of a run.** -/
structure OneRequest (id : UUID) (s : DeliverLoop) : Prop where
  held : Held s.machine
  frozen : Frozen id s.machine.row s.created
  sent : ∀ x ∈ s.machine.stripe.sent, x.params ∈ s.created

theorem OneRequest.step {latency : Int} {s s' : DeliverLoop} {a : LoopAct} (h : OneRequest id s)
    (hs : s.step latency a = some s') : OneRequest id s' := by
  cases a with
  | call w =>
    simp only [DeliverLoop.step] at hs
    split at hs
    · cases hs
      exact ⟨h.held, h.frozen, h.sent⟩
    · cases hs
  | leave w =>
    simp only [DeliverLoop.step] at hs
    split at hs
    · cases hs
      exact ⟨h.held, h.frozen, h.sent⟩
    · cases hs
  | act a =>
    simp only [DeliverLoop.step] at hs
    split at hs
    · cases hs
    next m hm ha =>
      cases hs
      have hturn := turn_of_step h.held hm
      refine ⟨hturn.held h.held, h.frozen.wrote hturn.wrote, fun x hx => ?_⟩
      rcases sent_step hm hx with hx | hx
      · exact h.sent x hx
      -- only a worker sends
      · cases a with
        | begin w => cases ha
        | _ => cases hx
    next m w hm ha =>
      have hturn := turn_of_step h.held hm
      split at hs
      · cases hs
      · cases hs
        refine ⟨hturn.held h.held, ?_, fun x hx => ?_⟩
        · rcases hturn.sends_cases with hnone | ⟨c, q, hsends, hq, hatt⟩
          · rw [hnone]
            exact h.frozen.wrote hturn.wrote
          · rw [hsends]
            exact (h.frozen.wrote hturn.wrote).create hq hatt
        · rcases sent_step hm hx with hx | hx
          · exact List.mem_append_right _ (h.sent x hx)
          · exact List.mem_append_left _ hx
  | outside clock draft memo items =>
    cases hs
    exact ⟨⟨h.held.exclusive, h.held.knows⟩, h.frozen, h.sent⟩

theorem oneRequest_of_staged {s : DeliverLoop} (hstaged : Delivery.Staged s.machine)
    (hcreated : s.created = []) : OneRequest s.machine.row.id s := by
  obtain ⟨usage, previous, args, customer, hrow⟩ := hstaged.row
  refine ⟨⟨fun w hw => absurd (hstaged.idle w) hw, fun w => by rw [hstaged.idle w]; trivial⟩,
    ⟨fun c q hq => .inl ?_, ?_, ?_, ?_⟩, ?_⟩
  · rw [hrow] at hq ⊢
    simp only [stageReport, stageRequest] at hq
    split at hq
    · cases hq
    · cases hq
      rfl
  · rw [hcreated]
    exact fun x hx => absurd hx List.not_mem_nil
  · rw [hcreated]
    exact fun x hx => absurd hx List.not_mem_nil
  · rw [hcreated]
    exact fun x hx => absurd hx List.not_mem_nil
  · rw [hstaged.unsent]
    exact fun x hx => absurd hx List.not_mem_nil

/-- **One idempotency key, one request.**  Any number of calls deliver a staged report, with
crashes, lost, late and repeated requests, and whatever Stripe answers.  In every state reached,
creates under one key have the same parameters, and nothing is on its way to Stripe under a key
that was used with others. -/
theorem one_key_one_request {latency : Int} {s₀ s : DeliverLoop}
    (hstaged : Delivery.Staged s₀.machine) (hcreated : s₀.created = [])
    (hreach : GuardedRun.Reach (step latency) GuardedRun.Always s₀ s) :
    (∀ x ∈ s.created, ∀ y ∈ s.created, x.idempotencyKey = y.idempotencyKey → x = y) ∧
      ∀ x ∈ s.machine.stripe.sent, keyReuse s.created x.params = false := by
  have h : OneRequest s₀.machine.row.id s :=
    hreach.invariant (oneRequest_of_staged hstaged hcreated) fun _ _ _ h _ hs => h.step hs
  refine ⟨h.frozen.single, fun x hx => List.any_eq_false.mpr fun y hy => ?_⟩
  simp only [decide_eq_true_eq, not_and, not_not]
  exact h.frozen.single y hy x.params (h.sent x hx)

/-- After the carryover the second request is sent under its own key. -/
def carriedAndSent : List LoopAct :=
  carriedOver ++ [.act (.commitIntent 0 (some
      ⟨"org", .pro, .active, some "cus", some "sub", 0, DateTime.days 30, none⟩)),
    .act (.lock 0), .act (.begin 0)]

/-- Two creates under two keys. -/
theorem one_key_one_request_carried :
    ∃ s, GuardedRun.run (step (DateTime.seconds 60)) stagedLoop carriedAndSent = some s ∧
      (s.created.map ChargeRequest.idempotencyKey =
        [carriedKey "rep" .traces, idempotencyKey "rep" .traces]) ∧
      (∀ x ∈ s.created, ∀ y ∈ s.created, x.idempotencyKey = y.idempotencyKey → x = y) ∧
      ∀ x ∈ s.machine.stripe.sent, keyReuse s.created x.params = false := by
  have hrun : (GuardedRun.run (step (DateTime.seconds 60)) stagedLoop carriedAndSent).map
      (fun s => s.created.map ChargeRequest.idempotencyKey) =
        some [carriedKey "rep" .traces, idempotencyKey "rep" .traces] := by
    decide +kernel
  obtain ⟨s, hs, hkeys⟩ := Option.map_eq_some_iff.mp hrun
  have hstaged : Delivery.Staged stagedLoop.machine :=
    ⟨⟨_, _, _, _, rfl⟩, rfl, fun _ => rfl, rfl, nofun⟩
  exact ⟨s, hs, hkeys, one_key_one_request hstaged rfl (GuardedRun.reach_of_run hs)⟩

end DeliverLoop
end PandaProbe
