import PandaProbe.Settlement

/-! # Which period starts an operation adds

The rows of an organization know of a period start if the subscription's current period
or a usage record has it.  No handler invents one: every period start that is new after
a handler ran is one that its event, its clock or the old period named (`AddsOnly`), and
but for the hobby reset none of them touches a usage hash (`Moves`).
-/
namespace PandaProbe
namespace BillingDb

/-- A period start the rows know of: the current one's, or a record's. -/
def Knows (db : BillingDb) (t : DateTime) : Prop :=
  db.subscription.map Subscription.currentPeriodStart = some t ∨ (db.usage t).isSome

/-- A change of the rows that adds no period start but those of a list. -/
def AddsOnly (l : List DateTime) (db db' : BillingDb) : Prop :=
  ∀ t, db'.Knows t → db.Knows t ∨ t ∈ l

variable {l : List DateTime} {db db' : BillingDb}

theorem AddsOnly.refl (l : List DateTime) (db : BillingDb) : AddsOnly l db db :=
  fun _ h => Or.inl h

theorem AddsOnly.trans {a b c : BillingDb} (h : AddsOnly l a b) (h' : AddsOnly l b c) :
    AddsOnly l a c := by
  intro t ht
  rcases h' t ht with hb | hl
  · exact h t hb
  · exact Or.inr hl

/-- A change that keeps the subscription row and every settlement adds nothing. -/
theorem AddsOnly.of_frame (hset : db'.settlement = db.settlement)
    (hsub : db'.subscription = db.subscription) : AddsOnly l db db' := by
  intro t ht
  left
  rcases ht with hc | hr
  · exact Or.inl (hsub ▸ hc)
  · right
    have h := congrArg Option.isSome (congrFun hset t)
    simpa [settlement, hr] using h.symm

theorem addsOnly_putSubscription {s : Subscription} (hs : s.currentPeriodStart ∈ l) :
    AddsOnly l db (db.putSubscription s) := by
  rintro t (hc | hr)
  · cases hc
    exact Or.inr hs
  · exact Or.inl (Or.inr hr)

theorem addsOnly_updateSubscription {f : Subscription → Subscription}
    (hf : ∀ s, (f s).currentPeriodStart = s.currentPeriodStart ∨ (f s).currentPeriodStart ∈ l) :
    AddsOnly l db (db.updateSubscription f) := by
  rintro t (hc | hr)
  · simp only [updateSubscription_subscription, Option.map_map, Option.map_eq_some_iff,
      Function.comp_apply] at hc
    obtain ⟨s, hs, rfl⟩ := hc
    rcases hf s with he | hl
    · rw [he]
      exact Or.inl (Or.inl (by rw [hs]; rfl))
    · exact Or.inr hl
  · exact Or.inl (Or.inr hr)

theorem addsOnly_advancePeriod {a : DateTime} (b : DateTime) (ha : a ∈ l) :
    AddsOnly l db (db.advancePeriod a b) := by
  refine addsOnly_updateSubscription fun s => ?_
  unfold Subscription.advance
  split
  · exact Or.inr ha
  · exact Or.inl rfl

/-- Writing one usage row adds at most its start. -/
theorem addsOnly_putUsage {u : UsageRecord} (hu : db.Knows u.periodStart ∨ u.periodStart ∈ l) :
    AddsOnly l db (db.putUsage u) := by
  rintro t (hc | hr)
  · exact Or.inl (Or.inl hc)
  · by_cases ht : t = u.periodStart
    · rw [ht]
      exact hu
    · rw [putUsage_usage, Function.update_of_ne ht] at hr
      exact Or.inl (Or.inr hr)

theorem addsOnly_getOrCreateUsageRecord (orgId : UUID) {a : DateTime} (b : DateTime)
    (ha : a ∈ l) : AddsOnly l db (db.getOrCreateUsageRecord orgId a b) := by
  unfold getOrCreateUsageRecord
  split
  · exact .refl _ _
  · exact addsOnly_putUsage (Or.inr ha)

theorem addsOnly_createUsageRecord {orgId : UUID} {a b : DateTime} (ha : a ∈ l)
    (h : db.createUsageRecord orgId a b = .ok db') : AddsOnly l db db' := by
  obtain ⟨-, rfl⟩ := createUsageRecord_ok h
  exact addsOnly_putUsage (Or.inr ha)

theorem addsOnly_upsertUsageCounters (orgId : UUID) {a : DateTime} (b : DateTime)
    (n : UsageCategory → Int) (ha : db.Knows a ∨ a ∈ l) :
    AddsOnly l db (db.upsertUsageCounters orgId a b n) := by
  refine addsOnly_putUsage ?_
  cases hu : db.usage a with
  | none => exact ha
  | some u =>
    have hkey : u.periodStart = a := db.usage_keyed a u hu
    change db.Knows u.periodStart ∨ u.periodStart ∈ l
    rw [hkey]
    exact ha

theorem addsOnly_markBilled (a : DateTime) (i : Option String) :
    AddsOnly l db (db.markBilled a i) := by
  unfold markBilled
  split
  · exact .refl _ _
  next u hu =>
    refine addsOnly_putUsage (Or.inl (Or.inr ?_))
    change (db.usage u.periodStart).isSome
    rw [db.usage_keyed a u hu, hu]
    rfl

theorem addsOnly_stage {t : DateTime} {a : StageArgs} (h : db.stage t a = .ok db') :
    AddsOnly l db db' := by
  obtain ⟨hu, hs⟩ := stage_frame h
  exact .of_frame (by funext x; simp only [settlement, hu]) hs

theorem addsOnly_reportOveragesToStripe {ctx : HandlerCtx} {t : Option DateTime}
    {i : Option String} (h : db.reportOveragesToStripe ctx t i = .ok db') :
    AddsOnly l db db' := by
  obtain ⟨hset, hsub⟩ := reportOveragesToStripe_frame h
  exact .of_frame hset hsub

end BillingDb

namespace UsageState
open BillingDb
variable {orgId : UUID} {st st' : UsageState} {l : List DateTime}

/-- An operation that leaves the usage hashes alone and adds no period start but those of
a list. -/
def Moves (l : List DateTime) (st st' : UsageState) : Prop :=
  st'.redis = st.redis ∧ AddsOnly l st.db st'.db

theorem Moves.refl (l : List DateTime) (st : UsageState) : Moves l st st := ⟨rfl, .refl l _⟩

theorem Moves.trans {a b c : UsageState} (h : Moves l a b) (h' : Moves l b c) : Moves l a c :=
  ⟨h'.1.trans h.1, h.2.trans h'.2⟩

theorem Moves.of_db {db : BillingDb} (h : AddsOnly l st.db db) : Moves l st { st with db := db } :=
  ⟨rfl, h⟩

theorem Moves.warmSubCache (h : Moves l st st') (ctx : HandlerCtx) :
    Moves l st (st'.warmSubCache ctx) := by
  unfold UsageState.warmSubCache
  split
  · exact h
  · exact h

theorem moves_syncToDatabase {period : Option (DateTime × DateTime)}
    (hp : ∀ p, period = some p → p.1 ∈ l) : Moves l st (st.syncToDatabase orgId period) := by
  unfold syncToDatabase
  split
  · exact .refl l st
  next start stop h =>
    simp only
    split
    · exact .refl l st
    · refine .of_db (addsOnly_upsertUsageCounters orgId stop _ ?_)
      cases period with
      | some p =>
        cases h
        exact Or.inr (hp _ rfl)
      | none =>
        obtain ⟨s, hs, he⟩ := Option.map_eq_some_iff.mp
          (show st.db.subscription.map _ = some (start, stop) from h)
        cases he
        exact Or.inl (Or.inl (by rw [hs]; rfl))

theorem moves_syncInvoicePeriod {obj : InvoiceEvent} {u : UsageRecord}
    (hl : ∀ p, invoicePeriod obj = .ok p → p.1 ∈ l)
    (h : st.syncInvoicePeriod orgId obj = .ok (st', u)) : Moves l st st' := by
  unfold syncInvoicePeriod at h
  split at h
  · cases h
  next start stop hperiod =>
    have hsync : Moves l st (st.syncToDatabase orgId (some (start, stop))) :=
      moves_syncToDatabase fun p hp => by cases hp; exact hl _ hperiod
    simp only at h
    split at h
    · split at h
      · cases h
      · split at h
        · cases h
          exact .refl l st
        · split at h
          · cases h
          · cases h
            exact hsync
    · split at h
      · cases h
      · cases h
        exact hsync

theorem moves_renew (ctx : HandlerCtx) {a : DateTime} (b : DateTime) (ha : a ∈ l) :
    Moves l st (st.renew orgId ctx a b) := by
  refine Moves.warmSubCache (.of_db ?_) ctx
  exact ((addsOnly_advancePeriod b ha).trans (addsOnly_getOrCreateUsageRecord orgId b ha)).trans
    (addsOnly_updateSubscription fun s => Or.inl rfl)

/-! ### The handlers -/

theorem moves_createOrganization {plan : SubscriptionPlan} {now : DateTime} (hl : now ∈ l)
    (h : st.createOrganization orgId plan now = .ok st') : Moves l st st' := by
  unfold createOrganization at h
  split at h
  · cases h
  · simp only at h
    split at h
    · cases h
    next db hdb =>
      cases h
      exact .of_db ((addsOnly_createUsageRecord hl hdb).trans (addsOnly_putSubscription hl))

theorem moves_handleCheckoutCompleted {obj : CheckoutEvent} (ctx : HandlerCtx)
    (hl : DateTime.fromTimestamp obj.periodStart ∈ l) :
    Moves l st (st.handleCheckoutCompleted orgId obj ctx) := by
  refine Moves.warmSubCache (.of_db ?_) ctx
  refine AddsOnly.trans (addsOnly_putSubscription ?_) (addsOnly_getOrCreateUsageRecord orgId _ hl)
  unfold checkoutSubscription
  split
  · exact hl
  · exact hl

theorem moves_handleInvoiceCreated {obj : InvoiceEvent} {ctx : HandlerCtx}
    (hl : ∀ p, invoicePeriod obj = .ok p → p.1 ∈ l)
    (h : st.handleInvoiceCreated orgId obj ctx = .ok st') : Moves l st st' := by
  unfold handleInvoiceCreated at h
  split at h
  · cases h
    exact .refl l st
  · split at h
    · cases h
      exact .refl l st
    · split at h
      · cases h
        exact .refl l st
      · split at h
        · cases h
        · split at h
          · cases h
          next st₁ usage hsync =>
            have hmoves := moves_syncInvoicePeriod hl hsync
            split at h
            · cases h
              exact hmoves
            · split at h
              · cases h
              next db hreport =>
                cases h
                exact hmoves.trans (.of_db (addsOnly_reportOveragesToStripe hreport))

theorem moves_handleInvoicePaid {obj : InvoiceEvent} {live : Int × Int} {ctx : HandlerCtx}
    (hl : ∀ p, invoicePeriod obj = .ok p → p.1 ∈ l) (hlive : DateTime.fromTimestamp live.1 ∈ l)
    (h : st.handleInvoicePaid orgId obj live ctx = .ok st') : Moves l st st' := by
  unfold handleInvoicePaid at h
  split at h
  · cases h
    exact .refl l st
  · simp only at h
    split at h
    · split at h
      · cases h
      · split at h
        · cases h
        next st₁ usage hsync =>
          have hmoves := moves_syncInvoicePeriod hl hsync
          split at h
          · cases h
            exact hmoves.trans (moves_renew ctx _ hlive)
          · split at h
            · cases h
            next db hstage =>
              cases h
              have hclose : Moves l st₁ { st₁ with db := db.markBilled usage.periodStart (some obj.id) } :=
                .of_db ((addsOnly_stage hstage).trans (addsOnly_markBilled _ _))
              exact hmoves.trans (hclose.trans (moves_renew ctx _ hlive))
    · cases h
      exact moves_renew ctx _ hlive

theorem moves_handleInvoicePaymentFailed (obj : InvoiceEvent) (ctx : HandlerCtx) :
    Moves l st (st.handleInvoicePaymentFailed obj ctx) := by
  unfold handleInvoicePaymentFailed
  split
  · exact .refl l st
  · refine Moves.warmSubCache (.of_db ?_) ctx
    exact addsOnly_updateSubscription fun _ => Or.inl rfl

theorem moves_handleSubscriptionUpdated {obj : SubscriptionEvent} (ctx : HandlerCtx)
    (hl : ∀ p, eventPeriod obj = some p → p.1 ∈ l) :
    Moves l st (st.handleSubscriptionUpdated obj ctx) := by
  unfold handleSubscriptionUpdated
  split
  · exact .refl l st
  · refine Moves.warmSubCache (.of_db ?_) ctx
    refine AddsOnly.trans ?_ (addsOnly_updateSubscription fun _ => Or.inl rfl)
    split
    next start stop hperiod => exact addsOnly_advancePeriod stop (hl _ hperiod)
    · exact .refl l _

theorem moves_finalizeOverages {sub : Subscription} {ctx : HandlerCtx} {b : Bool}
    (h : st.finalizeOverages orgId sub ctx = .ok (st', b)) : Moves l st st' := by
  have hsync : Moves l st (st.syncToDatabase orgId none) :=
    moves_syncToDatabase fun p hp => by cases hp
  unfold finalizeOverages at h
  split at h
  · simp only at h
    split at h
    · split at h
      · cases h
      next db hreport =>
        cases h
        exact hsync.trans (.of_db (addsOnly_reportOveragesToStripe hreport))
    · cases h
      exact hsync
  · cases h
    exact .refl l st

theorem addsOnly_closeOldPeriod (sub : Subscription) :
    AddsOnly l st.db (st.closeOldPeriod sub) := by
  obtain hsame | ⟨-, hclosed⟩ := closeOldPeriod_cases st sub
  · rw [hsame]
    exact .refl l _
  · rw [hclosed]
    exact addsOnly_markBilled _ _

theorem moves_handleSubscriptionDeleted (sid : String) {ctx : HandlerCtx} (hl : ctx.now ∈ l) :
    Moves l st (st.handleSubscriptionDeleted orgId sid ctx).1 := by
  unfold handleSubscriptionDeleted
  split
  · exact .refl l st
  next sub _ =>
    split
    · exact .refl l st
    next st₁ reported hfin =>
      have hmoves := moves_finalizeOverages (l := l) hfin
      simp only
      split
      · split
        · exact hmoves
        · exact .refl l st
      next db hdb =>
        refine hmoves.trans (Moves.warmSubCache (.of_db ?_) ctx)
        refine (addsOnly_closeOldPeriod sub).trans (AddsOnly.trans ?_
          (addsOnly_createUsageRecord hl hdb))
        exact addsOnly_updateSubscription fun _ => Or.inr hl

/-- A hobby reset adds the start of the next period and deletes the hash of the last. -/
theorem resetSingleHobbyOrg_cases {sub : Subscription} (hsub : st.db.subscription = some sub)
    (hl : sub.currentPeriodEnd ∈ l) (h : st.resetSingleHobbyOrg orgId = .ok st') :
    AddsOnly l st.db st'.db ∧
      st'.redis = (st.deleteUsageKey orgId sub.currentPeriodStart).redis := by
  obtain ⟨st₁, hcommit, rfl⟩ := resetSingleHobbyOrg_ok hsub h
  obtain ⟨db, hdb, rfl⟩ := commitReset_ok hcommit
  exact ⟨(addsOnly_advancePeriod _ hl).trans (addsOnly_createUsageRecord hl hdb), rfl⟩

end UsageState

end PandaProbe
