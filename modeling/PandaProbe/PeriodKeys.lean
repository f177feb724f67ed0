import PandaProbe.GuardedRun
import PandaProbe.PeriodStarts
import PandaProbe.UsageRollback

/-! # One counter per billing period

The usage hash of a period is named after the calendar day the period starts on, while
periods start at any instant: at an organization's creation, a checkout, a renewal, a
cancellation or a hobby reset.

A history of an organization is a run of its operations, with two notes: the period
starts it has had, and for each of them a tally of the units accepted (less those rolled
back) while it was the stored subscription's current period and its hash lived.  In a
history that starts no two periods on one day and counts under the current period
(`Distinct`), periods never share a hash and every hash is its period's tally
(`Separate`), so that is what a sync stores.  `periods_share_counter` is a history that
does not.
-/
namespace PandaProbe

/-- Something that happens to an organization. -/
inductive OrgOp
  | createOrganization (plan : SubscriptionPlan) (now : DateTime)
  | checkoutCompleted (obj : CheckoutEvent) (ctx : HandlerCtx)
  | invoiceCreated (obj : InvoiceEvent) (ctx : HandlerCtx)
  | invoicePaid (obj : InvoiceEvent) (live : Int × Int) (ctx : HandlerCtx)
  | invoicePaymentFailed (obj : InvoiceEvent) (ctx : HandlerCtx)
  | subscriptionUpdated (obj : SubscriptionEvent) (ctx : HandlerCtx)
  | subscriptionDeleted (subscriptionId : String) (ctx : HandlerCtx)
  | resetHobby
  | syncUsage
  | increment (category : UsageCategory) (count : Nat) (id : UUID)
  | rollback (category : UsageCategory) (count : Nat) (id : UUID)
  | expireUsageKey (periodStart : DateTime)
  | expireCache

namespace PeriodKeys
variable (orgId : UUID)

/-- The state after an operation; one that raises leaves what it has committed. -/
def apply (st : UsageState) : OrgOp → UsageState
  | .createOrganization plan now => ((st.createOrganization orgId plan now).toOption).getD st
  | .checkoutCompleted obj ctx => st.handleCheckoutCompleted orgId obj ctx
  | .invoiceCreated obj ctx => ((st.handleInvoiceCreated orgId obj ctx).toOption).getD st
  | .invoicePaid obj live ctx => ((st.handleInvoicePaid orgId obj live ctx).toOption).getD st
  | .invoicePaymentFailed obj ctx => st.handleInvoicePaymentFailed obj ctx
  | .subscriptionUpdated obj ctx => st.handleSubscriptionUpdated obj ctx
  | .subscriptionDeleted sid ctx => (st.handleSubscriptionDeleted orgId sid ctx).1
  | .resetHobby => ((st.resetSingleHobbyOrg orgId).toOption).getD st
  | .syncUsage => st.syncToDatabase orgId none
  | .increment category count id => (st.checkAndIncrement orgId category count id).1
  | .rollback category count id => st.rollbackIncrement orgId category count id
  | .expireUsageKey periodStart => st.deleteUsageKey orgId periodStart
  | .expireCache => st.invalidateSubscriptionCache

/-- The start of the stored subscription's current period. -/
def currentStart (st : UsageState) : Option DateTime :=
  st.db.subscription.map Subscription.currentPeriodStart

/-- An organization with its notes: the period starts it has had, and the tallies. -/
structure History where
  state : UsageState
  had : Set DateTime
  tally : DateTime → UsageCategory → Int

/-- `n` more units of a category for the current period. -/
def credit (h : History) (category : UsageCategory) (n : Int) : DateTime → UsageCategory → Int :=
  fun t c => h.tally t c + if currentStart h.state = some t ∧ c = category then n else 0

/-- The tallies whose hash is deleted start over. -/
def clear (h : History) (start : DateTime) : DateTime → UsageCategory → Int :=
  fun t c => if usageKey orgId t = usageKey orgId start then 0 else h.tally t c

/-- The tallies after an operation: accepted units are added to the current period's,
rolled back ones taken off, and a deleted hash starts over. -/
def retally (h : History) : OrgOp → DateTime → UsageCategory → Int
  | .increment category count id =>
    match (h.state.checkAndIncrement orgId category count id).2 with
    | .ok _ => credit h category count
    | .error _ => h.tally
  | .rollback category count _ => credit h category (-count)
  | .expireUsageKey start => clear orgId h start
  | .resetHobby =>
    match h.state.db.subscription, h.state.resetSingleHobbyOrg orgId with
    | some sub, .ok _ => clear orgId h sub.currentPeriodStart
    | _, _ => h.tally
  | _ => h.tally

/-- One operation of a history. -/
def step (h : History) (op : OrgOp) : History :=
  let st := apply orgId h.state op
  ⟨st, h.had ∪ { t | st.db.Knows t }, retally orgId h op⟩

/-- Nothing has happened yet. -/
def initial : History :=
  ⟨⟨BillingDb.empty, none, ⟨fun _ _ => none, fun _ => none⟩⟩, ∅, fun _ _ => 0⟩

/-- The start of the period an invoice names. -/
def invoiceStart (obj : InvoiceEvent) : List DateTime :=
  match invoicePeriod obj with
  | .ok (start, _) => [start]
  | .error _ => []

/-- The period starts an operation names. -/
def names (st : UsageState) : OrgOp → List DateTime
  | .createOrganization _ now => [now]
  | .checkoutCompleted obj _ => [DateTime.fromTimestamp obj.periodStart]
  | .invoiceCreated obj _ => invoiceStart obj
  | .invoicePaid obj live _ => invoiceStart obj ++ [DateTime.fromTimestamp live.1]
  | .subscriptionUpdated obj _ => ((UsageState.eventPeriod obj).map Prod.fst).toList
  | .subscriptionDeleted _ ctx => [ctx.now]
  | .resetHobby => (st.db.subscription.map Subscription.currentPeriodEnd).toList
  | _ => []

/-- Two period starts are the same or on different days. -/
def Apart (p q : DateTime) : Prop := p ≠ q → DateTime.isoDate p ≠ DateTime.isoDate q

/-- A counting call sees the current period. -/
def SeesCurrent (st : UsageState) : Prop :=
  st.visible.map Subscription.currentPeriodStart = currentStart st

/-- **The condition on an operation**: the period starts it names are on days of their own,
and a counting call sees the current period, a rollback one that holds what it takes
back. -/
def Distinct (h : History) (op : OrgOp) : Prop :=
  (∀ t ∈ names h.state op, ∀ p, p ∈ h.had ∨ p ∈ names h.state op → Apart p t) ∧
  match op with
  | .increment _ _ id => SeesCurrent h.state ∧ h.state.Fresh id
  | .rollback category count id => SeesCurrent h.state ∧ h.state.Fresh id ∧
      ∀ t, currentStart h.state = some t →
        (count : Int) ≤ h.state.redis.value (usageKey orgId t) category
  | _ => True

/-- Every period's hash is its tally, and no other hash counts anything. -/
structure Tallied (had : Set DateTime) (value : String → UsageCategory → Int)
    (tally : DateTime → UsageCategory → Int) : Prop where
  counted : ∀ t ∈ had, ∀ c, value (usageKey orgId t) c = tally t c
  unused : ∀ k, (∀ t ∈ had, usageKey orgId t ≠ k) → ∀ c, value k c = 0
  unheld : ∀ t ∉ had, ∀ c, tally t c = 0
  nonneg : ∀ k c, 0 ≤ value k c

/-- **What a history under the condition keeps.** -/
structure Separate (h : History) : Prop where
  apart : ∀ p ∈ h.had, ∀ q ∈ h.had, Apart p q
  known : ∀ t, h.state.db.Knows t → t ∈ h.had
  tallied : Tallied orgId h.had h.state.redis.value h.tally

variable {orgId}

theorem Apart.usageKey_ne {p q : DateTime} (h : Apart p q) (hne : p ≠ q) :
    usageKey orgId p ≠ usageKey orgId q :=
  fun hkey => h hne (usageKey_eq_iff.mp hkey)

theorem Apart.symm {p q : DateTime} (h : Apart p q) : Apart q p :=
  fun hne he => h (Ne.symm hne) he.symm

theorem separate_initial : Separate orgId initial where
  apart := fun p hp => absurd hp (Set.notMem_empty p)
  known := by rintro t (hc | hr) <;> simp [initial, BillingDb.empty] at *
  tallied := ⟨fun t ht => absurd ht (Set.notMem_empty t), fun _ _ _ => rfl, fun _ _ _ => rfl,
    fun _ _ => le_refl 0⟩

/-- A start that is new and on a day of its own has an unused hash. -/
theorem Tallied.value_of_apart {had : Set DateTime} {value : String → UsageCategory → Int}
    {tally : DateTime → UsageCategory → Int} (h : Tallied orgId had value tally) {t : DateTime}
    (hap : ∀ p ∈ had, Apart p t) (c : UsageCategory) : value (usageKey orgId t) c = tally t c := by
  by_cases ht : t ∈ had
  · exact h.counted t ht c
  · rw [h.unheld t ht]
    refine h.unused _ (fun p hp => ?_) c
    exact (hap p hp).usageKey_ne (fun he => ht (he ▸ hp))

/-- New period starts on days of their own keep the tallies. -/
theorem Tallied.union {had new : Set DateTime} {value : String → UsageCategory → Int}
    {tally : DateTime → UsageCategory → Int} (h : Tallied orgId had value tally)
    (hnew : ∀ t ∈ new, ∀ p ∈ had, Apart p t) : Tallied orgId (had ∪ new) value tally where
  counted := by
    rintro t (ht | ht) c
    · exact h.counted t ht c
    · exact h.value_of_apart (hnew t ht) c
  unused := fun k hk => h.unused k fun t ht => hk t (Or.inl ht)
  unheld := fun t ht => h.unheld t fun hmem => ht (Or.inl hmem)
  nonneg := h.nonneg

/-- **The step rule**: an operation that adds only period starts it names, each on a day of
its own, and leaves every hash of the old periods at its new tally. -/
theorem Separate.next {h : History} {op : OrgOp} (hsep : Separate orgId h)
    (hdist : Distinct orgId h op)
    (hadds : BillingDb.AddsOnly (names h.state op) h.state.db (apply orgId h.state op).db)
    (htally : Tallied orgId h.had (apply orgId h.state op).redis.value (retally orgId h op)) :
    Separate orgId (step orgId h op) := by
  have hnew : ∀ t, (apply orgId h.state op).db.Knows t → t ∈ h.had ∨ t ∈ names h.state op := by
    intro t ht
    rcases hadds t ht with hold | hname
    · exact Or.inl (hsep.known t hold)
    · exact Or.inr hname
  -- old starts are apart by the invariant, named ones from everything by the condition
  have hap : ∀ t, t ∈ h.had ∨ t ∈ names h.state op →
      ∀ p, p ∈ h.had ∨ p ∈ names h.state op → Apart p t := by
    rintro t (ht | ht) p hp
    · rcases hp with hp | hp
      · exact hsep.apart p hp t ht
      · exact (hdist.1 p hp t (Or.inl ht)).symm
    · exact hdist.1 t ht p hp
  have hmem : ∀ t ∈ (step orgId h op).had, t ∈ h.had ∨ t ∈ names h.state op := by
    rintro t (ht | ht)
    · exact Or.inl ht
    · exact hnew t ht
  exact {
    apart := fun p hp q hq => hap q (hmem q hq) p (hmem p hp)
    known := fun t ht => Or.inr ht
    tallied := htally.union fun t ht p hp => hap t (hnew t ht) p (Or.inl hp) }

/-- The step rule for the operations that leave the usage hashes alone. -/
theorem Separate.of_moves {h : History} {op : OrgOp} (hsep : Separate orgId h)
    (hdist : Distinct orgId h op)
    (hmoves : UsageState.Moves (names h.state op) h.state (apply orgId h.state op))
    (hsame : retally orgId h op = h.tally) : Separate orgId (step orgId h op) := by
  refine hsep.next hdist hmoves.2 ?_
  rw [hmoves.1, hsame]
  exact hsep.tallied

/-! ## The hashes -/

/-- Deleting a hash starts its tally over. -/
theorem tallied_clear {h : History} (hsep : Separate orgId h) (start : DateTime) :
    Tallied orgId h.had (h.state.deleteUsageKey orgId start).redis.value (clear orgId h start) := by
  have hval : ∀ k c, (h.state.deleteUsageKey orgId start).redis.value k c =
      if k = usageKey orgId start then 0 else h.state.redis.value k c := by
    intro k c
    simp only [UsageState.deleteUsageKey, UsageStore.value]
    by_cases hk : k = usageKey orgId start <;> simp [hk]
  have hold := hsep.tallied
  refine ⟨fun t ht c => ?_, fun k hk c => ?_, fun t ht c => ?_, fun k c => ?_⟩
  · rw [hval, clear, hold.counted t ht]
  · rw [hval, hold.unused k hk]
    exact ite_self 0
  · rw [clear, hold.unheld t ht]
    exact ite_self 0
  · rw [hval]
    split
    · exact le_refl 0
    · exact hold.nonneg k c

/-- What a counting call that sees the current period adds to a known period's hash. -/
theorem unitsAt_of_seesCurrent {h : History} (hsep : Separate orgId h)
    (hsees : SeesCurrent h.state) {t : DateTime} (ht : t ∈ h.had) (category c : UsageCategory)
    (n : Int) :
    UsageState.unitsAt orgId h.state.visible category n (usageKey orgId t) c =
      if currentStart h.state = some t ∧ c = category then n else 0 := by
  rw [← hsees]
  cases hv : h.state.visible with
  | none => simp
  | some sub =>
    have hcur : currentStart h.state = some sub.currentPeriodStart := by
      rw [← hsees, hv]
      rfl
    have hmem : sub.currentPeriodStart ∈ h.had := hsep.known _ (Or.inl hcur)
    have hkey : usageKey orgId t = usageKey orgId sub.currentPeriodStart ↔
        sub.currentPeriodStart = t := by
      refine ⟨fun he => ?_, fun he => he ▸ rfl⟩
      by_contra hne
      exact (hsep.apart _ hmem t ht).usageKey_ne hne he.symm
    simp [UsageState.unitsAt_some, hkey]

/-- Units counted under the current period go to its tally. -/
theorem tallied_credit {h : History} (hsep : Separate orgId h) (hsees : SeesCurrent h.state)
    {category : UsageCategory} {n : Int} {value : String → UsageCategory → Int}
    (hval : ∀ k c, value k c =
      h.state.redis.value k c + UsageState.unitsAt orgId h.state.visible category n k c)
    (hnn : ∀ k c, 0 ≤ value k c) : Tallied orgId h.had value (credit h category n) := by
  have hold := hsep.tallied
  refine ⟨fun t ht c => ?_, fun k hk c => ?_, fun t ht c => ?_, hnn⟩
  · rw [hval, hold.counted t ht, unitsAt_of_seesCurrent hsep hsees ht, credit]
  · rw [hval, hold.unused k hk, zero_add]
    cases hv : h.state.visible with
    | none => rfl
    | some sub =>
      have hcur : currentStart h.state = some sub.currentPeriodStart := by
        rw [← hsees, hv]
        rfl
      have hne := hk _ (hsep.known _ (Or.inl hcur))
      rw [UsageState.unitsAt_some, if_neg (fun he => hne he.1.symm)]
  · have hne : currentStart h.state ≠ some t := fun he => ht (hsep.known t (Or.inl he))
    rw [credit, hold.unheld t ht, if_neg (fun he => hne he.1), zero_add]

/-! ## Whole histories -/

theorem mem_invoiceStart {obj : InvoiceEvent} {p : DateTime × DateTime}
    (h : invoicePeriod obj = .ok p) : p.1 ∈ invoiceStart obj := by
  simp [invoiceStart, h]

/-- The counting calls change no row. -/
theorem addsOnly_of_db_eq {l : List DateTime} {db db' : BillingDb} (h : db' = db) :
    BillingDb.AddsOnly l db db' := h ▸ .refl l db

theorem separate_increment {h : History} {category : UsageCategory} {count : Nat} {id : UUID}
    (hsep : Separate orgId h) (hdist : Distinct orgId h (.increment category count id)) :
    Separate orgId (step orgId h (.increment category count id)) := by
  obtain ⟨hsees, hid⟩ := hdist.2
  refine hsep.next hdist (addsOnly_of_db_eq (UsageState.checkAndIncrement_db _ _ _ _)) ?_
  simp only [apply, retally]
  split
  next v hok =>
    obtain ⟨sub, hv, hval⟩ := UsageState.value_of_checkAndIncrement_ok hid hok
    rw [← hv] at hval
    refine tallied_credit hsep hsees hval (fun k c => ?_)
    rw [hval, hv, UsageState.unitsAt_some]
    have := hsep.tallied.nonneg k c
    split <;> omega
  -- a refused call changes no counter, as none is negative
  next e hno =>
    have hval := value_of_checkAndIncrement_error hsep.tallied.nonneg hid hno
    have hsame : (h.state.checkAndIncrement orgId category count id).1.redis.value =
        h.state.redis.value := funext fun k => funext fun c => hval k c
    rw [hsame]
    exact hsep.tallied

theorem separate_rollback {h : History} {category : UsageCategory} {count : Nat} {id : UUID}
    (hsep : Separate orgId h) (hdist : Distinct orgId h (.rollback category count id)) :
    Separate orgId (step orgId h (.rollback category count id)) := by
  obtain ⟨hsees, hid, hcover⟩ := hdist.2
  refine hsep.next hdist (addsOnly_of_db_eq (UsageState.rollbackIncrement_db _ _ _ _)) ?_
  have hval : ∀ k c, (h.state.rollbackIncrement orgId category count id).redis.value k c =
      h.state.redis.value k c +
        UsageState.unitsAt orgId h.state.visible category (-count) k c := by
    intro k c
    rw [UsageState.rollbackIncrement_value hid]
    cases h.state.visible with
    | none => simp
    | some sub =>
      simp only [UsageState.unitsAt_some]
      split <;> omega
  refine tallied_credit hsep hsees hval (fun k c => ?_)
  rw [apply, hval]
  have hnn := hsep.tallied.nonneg k c
  cases hv : h.state.visible with
  | none => simpa using hnn
  | some sub =>
    have hcur : currentStart h.state = some sub.currentPeriodStart := by
      rw [← hsees, hv]
      rfl
    -- the rollback takes from the current period, which has at least these units
    rw [UsageState.unitsAt_some]
    split
    next he =>
      have := hcover _ hcur
      rw [he.1, he.2]
      omega
    · simpa using hnn

theorem separate_resetHobby {h : History} (hsep : Separate orgId h)
    (hdist : Distinct orgId h .resetHobby) : Separate orgId (step orgId h .resetHobby) := by
  cases hsub : h.state.db.subscription with
  | none =>
    have hsame : h.state.resetSingleHobbyOrg orgId = .ok h.state := by
      simp [UsageState.resetSingleHobbyOrg, hsub]
    refine hsep.of_moves hdist ?_ (by simp only [retally, hsub])
    simp only [apply, hsame]
    exact .refl _ _
  | some sub =>
    cases hres : h.state.resetSingleHobbyOrg orgId with
    | error e =>
      refine hsep.of_moves hdist ?_ (by simp only [retally, hsub, hres])
      simp only [apply, hres]
      exact .refl _ _
    | ok st =>
      have hl : sub.currentPeriodEnd ∈ names h.state .resetHobby := by simp [names, hsub]
      obtain ⟨hadds, hredis⟩ := UsageState.resetSingleHobbyOrg_cases hsub hl hres
      refine hsep.next hdist (by simpa [apply, hres, Except.toOption] using hadds) ?_
      simp only [apply, retally, hsub, hres]
      change Tallied orgId h.had st.redis.value _
      rw [hredis]
      exact tallied_clear hsep _

/-- A handler that returns moves as it does, and one that raises moves nothing. -/
theorem moves_getD {l : List DateTime} {st : UsageState} {r : Except BillingError UsageState}
    (h : ∀ st', r = .ok st' → UsageState.Moves l st st') :
    UsageState.Moves l st (r.toOption.getD st) := by
  cases r with
  | error e => exact .refl l st
  | ok st' => exact h st' rfl

/-- **One operation keeps the periods separate.** -/
theorem separate_step {h : History} {op : OrgOp} (hsep : Separate orgId h)
    (hdist : Distinct orgId h op) : Separate orgId (step orgId h op) := by
  cases op with
  | createOrganization plan now =>
    refine hsep.of_moves hdist (moves_getD fun st' hst => ?_) rfl
    exact UsageState.moves_createOrganization (List.mem_singleton_self now) hst
  | checkoutCompleted obj ctx =>
    exact hsep.of_moves hdist
      (UsageState.moves_handleCheckoutCompleted ctx (List.mem_singleton_self _)) rfl
  | invoiceCreated obj ctx =>
    refine hsep.of_moves hdist (moves_getD fun st' hst => ?_) rfl
    exact UsageState.moves_handleInvoiceCreated (fun p => mem_invoiceStart) hst
  | invoicePaid obj live ctx =>
    refine hsep.of_moves hdist (moves_getD fun st' hst => ?_) rfl
    refine UsageState.moves_handleInvoicePaid (fun p hp => ?_) ?_ hst
    · exact List.mem_append_left _ (mem_invoiceStart hp)
    · exact List.mem_append_right _ (List.mem_singleton_self _)
  | invoicePaymentFailed obj ctx =>
    exact hsep.of_moves hdist (UsageState.moves_handleInvoicePaymentFailed obj ctx) rfl
  | subscriptionUpdated obj ctx =>
    refine hsep.of_moves hdist (UsageState.moves_handleSubscriptionUpdated ctx fun p hp => ?_) rfl
    simp [names, hp]
  | subscriptionDeleted sid ctx =>
    exact hsep.of_moves hdist
      (UsageState.moves_handleSubscriptionDeleted sid (List.mem_singleton_self _)) rfl
  | resetHobby => exact separate_resetHobby hsep hdist
  | syncUsage =>
    exact hsep.of_moves hdist (UsageState.moves_syncToDatabase fun p hp => by cases hp) rfl
  | increment category count id => exact separate_increment hsep hdist
  | rollback category count id => exact separate_rollback hsep hdist
  | expireUsageKey start =>
    exact hsep.next hdist (.refl _ _) (tallied_clear hsep start)
  | expireCache => exact hsep.of_moves hdist ⟨rfl, .refl _ _⟩ rfl

/-- The histories from nothing whose operations all meet a condition. -/
def Reachable (orgId : UUID) (ok : History → OrgOp → Prop) : History → Prop :=
  GuardedRun.Reach (fun h op => some (step orgId h op)) ok initial

theorem separate_of_reachable {h : History} (hreach : Reachable orgId (Distinct orgId) h) :
    Separate orgId h :=
  GuardedRun.Reach.invariant hreach separate_initial fun _ _ _ hsep hok hs => by
    cases hs
    exact separate_step hsep hok

/-- A sync of a period on a day of its own stores that period's tally. -/
theorem syncToDatabase_tally {h : History} (hsep : Separate orgId h) {start : DateTime}
    (stop : DateTime) (hap : ∀ p ∈ h.had, Apart p start)
    (hfull : h.state.hashEmpty (usageKey orgId start) = false) :
    ∃ u, (h.state.syncToDatabase orgId (some (start, stop))).db.usage start = some u ∧
      u.count = h.tally start := by
  rw [UsageState.syncToDatabase_some, if_neg (by simp [hfull])]
  simp only [BillingDb.upsertUsageCounters_usage, if_true]
  refine ⟨_, rfl, ?_⟩
  funext c
  exact hsep.tallied.value_of_apart hap c

/-- **Periods on days of their own have counters of their own.**  In every history whose
operations meet `Distinct`, usage records with different period starts have different
usage keys, and a sync, of the current period or of one whose start is on a day of its
own, stores exactly the units accepted (less those rolled back) while that period was
the subscription's current one and its hash lived. -/
theorem counters_separate {h : History} (hreach : Reachable orgId (Distinct orgId) h) :
    (∀ p q u v, h.state.db.usage p = some u → h.state.db.usage q = some v →
      u.periodStart ≠ v.periodStart → usageKey orgId u.periodStart ≠ usageKey orgId v.periodStart) ∧
    (∀ start stop, (∀ p ∈ h.had, Apart p start) →
      h.state.hashEmpty (usageKey orgId start) = false →
      ∃ u, (h.state.syncToDatabase orgId (some (start, stop))).db.usage start = some u ∧
        u.count = h.tally start) ∧
    (∀ start, currentStart h.state = some start →
      h.state.hashEmpty (usageKey orgId start) = false →
      ∃ u, (h.state.syncToDatabase orgId none).db.usage start = some u ∧
        u.count = h.tally start) := by
  have hsep := separate_of_reachable hreach
  have hmem : ∀ p u, h.state.db.usage p = some u → u.periodStart ∈ h.had := by
    intro p u hu
    refine hsep.known _ (Or.inr ?_)
    rw [h.state.db.usage_keyed p u hu, hu]
    rfl
  refine ⟨?_, ?_, ?_⟩
  · intro p q u v hu hv hne
    exact (hsep.apart _ (hmem p u hu) _ (hmem q v hv)).usageKey_ne hne
  · intro start stop hap hfull
    exact syncToDatabase_tally hsep stop hap hfull
  · intro start hcur hfull
    obtain ⟨sub, hsub, rfl⟩ := Option.map_eq_some_iff.mp hcur
    -- a sync without a period takes the current one of the row
    have hsync : h.state.syncToDatabase orgId none = h.state.syncToDatabase orgId
        (some (sub.currentPeriodStart, sub.currentPeriodEnd)) := by
      simp [UsageState.syncToDatabase, hsub]
    rw [hsync]
    refine syncToDatabase_tally hsep _ (fun p hp => ?_) hfull
    exact hsep.apart p hp _ (hsep.known _ (Or.inl hcur))

/-- An organization is created at eight o'clock of a day, counts three traces, and checks
out to Pro at `hour` o'clock. -/
def upgradeAt (hour : Int) : List OrgOp :=
  [.createOrganization .hobby (DateTime.hours 8),
    .increment .traces 3 "i",
    .checkoutCompleted ⟨.pro, some "cus", "sub", hour * 3600, hour * 3600 + 2592000⟩
      ⟨true, true, DateTime.hours hour, "rep", []⟩]

/-- Checking out the next day: the old hash holds the three traces of the hobby period,
which is what a sync of that period stores. -/
theorem counters_separate_next_day :
    let h := (upgradeAt 34).foldl (step "org") initial
    ∃ u, (h.state.syncToDatabase "org" (some (DateTime.hours 8, DateTime.days 31))).db.usage
        (DateTime.hours 8) = some u ∧ u.count .traces = 3 := by
  intro h
  let h₁ := step "org" initial (.createOrganization .hobby (DateTime.hours 8))
  let h₂ := step "org" h₁ (.increment .traces 3 "i")
  have hknown : ∀ p, h₁.state.db.Knows p → p = DateTime.hours 8 := by
    rintro p (hc | hr)
    · exact (Option.some.inj hc).symm
    · by_contra hne
      have hnone : h₁.state.db.usage p = none := Function.update_of_ne hne _ _
      rw [hnone] at hr
      cases hr
  have hhad : ∀ p ∈ h₂.had, p = DateTime.hours 8 := by
    rintro p ((hp | hp) | hp)
    · exact absurd hp (Set.notMem_empty p)
    · exact hknown p hp
    · exact hknown p (by simpa [h₂, step, apply, UsageState.checkAndIncrement_db] using hp)
  have hreach : Reachable "org" (Distinct "org") h := by
    have hreach₁ : Reachable "org" (Distinct "org") h₁ :=
      .step .initial ⟨by simp [names, initial, Apart], trivial⟩ rfl
    have hreach₂ : Reachable "org" (Distinct "org") h₂ :=
      .step (a := .increment .traces 3 "i") hreach₁
        ⟨by simp [names], rfl, fun _ => ⟨rfl, rfl⟩⟩ rfl
    refine .step hreach₂ ⟨?_, trivial⟩ rfl
    intro t ht p hp
    obtain rfl : t = DateTime.fromTimestamp (34 * 3600) := List.mem_singleton.mp ht
    rcases hp with hp | hp
    · rw [hhad p hp]
      exact fun _ => by decide
    · rw [List.mem_singleton.mp hp]
      exact fun hne => absurd rfl hne
  have hsep := separate_of_reachable hreach
  obtain ⟨u, hu, hcount⟩ := (counters_separate hreach).2.1 (DateTime.hours 8) (DateTime.days 31)
    (fun p hp => hsep.apart p hp _ (hsep.known _ (Or.inr rfl))) (by decide)
  exact ⟨u, hu, by rw [hcount]; decide⟩

/-- **Two periods that start on one day.**  Checking out two hours later, the hobby and the
Pro period share their hash, and a sync of the Pro period stores the three traces that
were accepted before it began. -/
theorem periods_share_counter :
    ∃ h, Reachable "org" GuardedRun.Always h ∧
      ∃ u v w, h.state.db.usage (DateTime.hours 8) = some u ∧
        h.state.db.usage (DateTime.hours 10) = some v ∧
        u.periodStart ≠ v.periodStart ∧
        usageKey "org" u.periodStart = usageKey "org" v.periodStart ∧
        currentStart h.state = some v.periodStart ∧
        h.tally v.periodStart .traces = 0 ∧
        (h.state.syncToDatabase "org" none).db.usage v.periodStart = some w ∧
        w.count .traces = 3 := by
  refine ⟨(upgradeAt 10).foldl (step "org") initial, ?_, _, _, _, rfl, rfl, ?_, ?_, rfl, ?_,
    rfl, ?_⟩
  · exact @GuardedRun.reach_of_run _ _ _ _ _ (upgradeAt 10) rfl
  · decide
  · decide
  · decide
  · decide

end PeriodKeys
end PandaProbe
