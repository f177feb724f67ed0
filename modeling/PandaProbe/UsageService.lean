import PandaProbe.BillingEntities
import PandaProbe.QuotaScripts

/-! # Usage tracking of one organization

`UsageService` reads the organization's subscription through a Redis cache and
counts usage in the Redis hash named after the period the subscription is in.
The state has the three stores it works on: the organization's billing rows, its
cached subscription, and the usage hashes.
-/
namespace PandaProbe

/-- `_usage_key`: one hash for the organization and the calendar day its period
starts on. -/
def usageKey (orgId : UUID) (periodStart : DateTime) : String :=
  "pp:usage:" ++ orgId ++ ":" ++ DateTime.isoDate periodStart

/-- **Two periods of an organization share a usage hash exactly when they start on
the same day.** -/
theorem usageKey_eq_iff {orgId : UUID} {s t : DateTime} :
    usageKey orgId s = usageKey orgId t ↔ DateTime.isoDate s = DateTime.isoDate t :=
  String.append_right_inj _

/-- Why a billable action is refused. -/
inductive QuotaError
  | noSubscription
  | notActive
  | limitReached (category : UsageCategory) (limit : Option Int) (plan : SubscriptionPlan)
  deriving DecidableEq, Repr

/-- The plan's string value. -/
def SubscriptionPlan.value : SubscriptionPlan → String
  | .hobby => "HOBBY"
  | .pro => "PRO"
  | .startup => "STARTUP"
  | .enterprise => "ENTERPRISE"
  | .development => "DEVELOPMENT"

/-- The message of the raised `QuotaExceededError`. -/
def QuotaError.detail : QuotaError → String
  | .noSubscription => "No active subscription found for this organization."
  | .notActive => "Your subscription is not active."
  | .limitReached category limit plan =>
      "You've reached the " ++ category.value ++ " limit (" ++
        (limit.map toString).getD "None" ++ ") for your " ++ plan.value ++ " plan. " ++
        "Please upgrade to continue."

/-- The hard limit handed to the script: a plan that bills overage has none, and
neither has an unlimited one. -/
def hardLimit (plan : SubscriptionPlan) (category : UsageCategory) : Int :=
  if !(getPlanConfig plan).payAsYouGo then (getLimitForCategory plan category).getD (-1) else -1

/-- The billing rows, the cached subscription and the usage hashes of one organization. -/
structure UsageState where
  db : BillingDb
  cache : Option Subscription
  redis : UsageStore

namespace UsageState
variable (orgId : UUID) (st : UsageState)

/-- The subscription a cached read sees: the cached one, else the stored one. -/
def visible : Option Subscription := st.cache <|> st.db.subscription

/-- `_get_subscription_cached`: read through the cache, filling it on a miss. -/
def getSubscriptionCached : UsageState × Option Subscription :=
  match st.cache with
  | some sub => (st, some sub)
  | none =>
    match st.db.subscription with
    | none => (st, none)
    | some sub => ({ st with cache := some sub }, some sub)

/-- Atomically increment usage and enforce quota.  `id` is the `uuid4` of the
retry-deduplication key. -/
def checkAndIncrement (category : UsageCategory) (count : Int) (id : UUID) :
    UsageState × Except QuotaError Int :=
  let (st, sub) := st.getSubscriptionCached
  match sub with
  | none => (st, .error .noSubscription)
  | some sub =>
    if sub.status ≠ .active ∧ sub.status ≠ .pastDue then (st, .error .notActive)
    else
      let key := usageKey orgId sub.currentPeriodStart
      let (redis, newVal) := checkAndIncrementLua st.redis key (retryKey key id) category count
        (hardLimit sub.plan category)
      let st := { st with redis := redis }
      if newVal = -1 then
        (st, .error (.limitReached category (getLimitForCategory sub.plan category) sub.plan))
      else (st, .ok newVal)

/-- Best-effort compensating decrement after a failed downstream operation. -/
def rollbackIncrement (category : UsageCategory) (count : Int) (id : UUID) : UsageState :=
  let (st, sub) := st.getSubscriptionCached
  match sub with
  | none => st
  | some sub =>
    let key := usageKey orgId sub.currentPeriodStart
    { st with redis :=
        (rollbackIncrementLua st.redis key (rollbackRetryKey key id) category count).1 }

/-- `HGETALL` finds nothing. -/
def hashEmpty (key : String) : Bool :=
  UsageCategory.all.all (fun c => (st.redis.hash key c).isNone)

/-- Persist Redis counters for the current or an explicitly selected period. -/
def syncToDatabase (period : Option (DateTime × DateTime)) : UsageState :=
  match period <|> st.db.subscription.map (fun s => (s.currentPeriodStart, s.currentPeriodEnd)) with
  | none => st
  | some (start, stop) =>
    let key := usageKey orgId start
    if st.hashEmpty key then st
    else { st with db := st.db.upsertUsageCounters orgId start stop (st.redis.value key) }

/-- Remove the Redis usage hash for a given period. -/
def deleteUsageKey (periodStart : DateTime) : UsageState :=
  { st with redis := { st.redis with
      hash := Function.update st.redis.hash (usageKey orgId periodStart) (fun _ => none) } }

/-- Remove the cached subscription so the next lookup fetches from the database. -/
def invalidateSubscriptionCache : UsageState := { st with cache := none }

/-! ## What each call does to the counters -/

@[simp] theorem getSubscriptionCached_snd : st.getSubscriptionCached.2 = st.visible := by
  unfold getSubscriptionCached visible
  cases st.cache <;> cases st.db.subscription <;> rfl

@[simp] theorem getSubscriptionCached_redis : st.getSubscriptionCached.1.redis = st.redis := by
  unfold getSubscriptionCached
  cases st.cache <;> cases st.db.subscription <;> rfl

@[simp] theorem getSubscriptionCached_db : st.getSubscriptionCached.1.db = st.db := by
  unfold getSubscriptionCached
  cases st.cache <;> cases st.db.subscription <;> rfl

/-- `n` at the counter named by a category and the period of a subscription, and
zero at every other counter. -/
def unitsAt (sub : Option Subscription) (category : UsageCategory) (n : Int) (k : String)
    (f : UsageCategory) : Int :=
  match sub with
  | none => 0
  | some s => if k = usageKey orgId s.currentPeriodStart ∧ f = category then n else 0

@[simp] theorem unitsAt_none (category : UsageCategory) (n : Int) (k : String)
    (f : UsageCategory) : unitsAt orgId none category n k f = 0 := rfl

@[simp] theorem unitsAt_some (s : Subscription) (category : UsageCategory) (n : Int) (k : String)
    (f : UsageCategory) : unitsAt orgId (some s) category n k f =
      if k = usageKey orgId s.currentPeriodStart ∧ f = category then n else 0 := rfl

/-- The identity drawn for a call is new: nothing is remembered under it. -/
def Fresh (id : UUID) : Prop :=
  ∀ key, st.redis.dedup (retryKey key id) = none ∧ st.redis.dedup (rollbackRetryKey key id) = none

variable {orgId st} {category : UsageCategory} {count : Int} {id : UUID}

/-- The counting calls change no row. -/
theorem checkAndIncrement_db (st : UsageState) (c : UsageCategory) (n : Int) (id : UUID) :
    (st.checkAndIncrement orgId c n id).1.db = st.db := by
  unfold checkAndIncrement
  simp only [getSubscriptionCached_snd]
  split
  · exact st.getSubscriptionCached_db
  · split
    · exact st.getSubscriptionCached_db
    · split <;> exact st.getSubscriptionCached_db

theorem rollbackIncrement_db (st : UsageState) (c : UsageCategory) (n : Int) (id : UUID) :
    (st.rollbackIncrement orgId c n id).db = st.db := by
  unfold rollbackIncrement
  simp only [getSubscriptionCached_snd]
  split <;> exact st.getSubscriptionCached_db

/-- Writing a counter's own value plus `n` adds `n` there and nothing elsewhere. -/
theorem value_hset_add (redis : UsageStore) (sub : Subscription) (n : Int) (k : String)
    (f : UsageCategory) :
    (redis.hset (usageKey orgId sub.currentPeriodStart) category
      (redis.value (usageKey orgId sub.currentPeriodStart) category + n)).value k f =
        redis.value k f + unitsAt orgId (some sub) category n k f := by
  rw [UsageStore.value_hset, unitsAt_some]
  split
  · rename_i h; rw [h.1, h.2]
  · rw [add_zero]

/-- **Everything a first `check_and_increment` can do.**  It is refused and leaves
every counter as it was; or it adds `count` to the counter of the period it sees,
and returns the new value unless that value is `-1`. -/
theorem checkAndIncrement_cases (hid : st.Fresh id) :
    (∃ e, (st.checkAndIncrement orgId category count id).2 = .error e ∧
      ∀ k f, (st.checkAndIncrement orgId category count id).1.redis.value k f =
        st.redis.value k f) ∨
    (∃ sub, st.visible = some sub ∧
      (∀ k f, (st.checkAndIncrement orgId category count id).1.redis.value k f =
        st.redis.value k f + unitsAt orgId st.visible category count k f) ∧
      (((st.checkAndIncrement orgId category count id).2 =
          .ok (st.redis.value (usageKey orgId sub.currentPeriodStart) category + count)) ∨
        (st.redis.value (usageKey orgId sub.currentPeriodStart) category + count = -1 ∧
          ∃ e, (st.checkAndIncrement orgId category count id).2 = .error e))) := by
  have hfst : st.getSubscriptionCached = (st.getSubscriptionCached.1, st.visible) :=
    Prod.ext rfl st.getSubscriptionCached_snd
  unfold checkAndIncrement
  rw [hfst]
  cases hv : st.visible with
  | none => exact Or.inl ⟨_, rfl, fun k f => by simp⟩
  | some sub =>
    simp only [getSubscriptionCached_redis]
    split
    · exact Or.inl ⟨_, rfl, fun k f => by simp⟩
    · rw [checkAndIncrementLua_fresh (hid _).1]
      by_cases hlim : hardLimit sub.plan category ≥ 0 ∧
          st.redis.value (usageKey orgId sub.currentPeriodStart) category + count >
            hardLimit sub.plan category
      · left
        simp only [if_pos hlim]
        refine ⟨_, rfl, fun k f => ?_⟩
        have hsame := @value_hset_add orgId category st.redis sub 0 k f
        simpa using hsame
      · right
        simp only [if_neg hlim]
        refine ⟨sub, rfl, fun k f => ?_, ?_⟩
        · split <;> exact value_hset_add st.redis sub count k f
        · split
          -- a new count of -1 reads as the script's refusal
          · rename_i h; exact Or.inr ⟨h, _, rfl⟩
          · exact Or.inl rfl

/-- **What a first `rollback_increment` does**: it subtracts `count` from the
counter of the period it sees now, if it sees one. -/
theorem rollbackIncrement_value (hid : st.Fresh id) (k : String) (f : UsageCategory) :
    (st.rollbackIncrement orgId category count id).redis.value k f =
      st.redis.value k f - unitsAt orgId st.visible category count k f := by
  have hfst : st.getSubscriptionCached = (st.getSubscriptionCached.1, st.visible) :=
    Prod.ext rfl st.getSubscriptionCached_snd
  unfold rollbackIncrement
  rw [hfst]
  cases hv : st.visible with
  | none => simp
  | some sub =>
    simp only [getSubscriptionCached_redis]
    rw [rollbackIncrementLua_fresh (hid _).2, UsageStore.value_setDedup, value_hset_add]
    simp only [unitsAt_some]
    split <;> omega

end UsageState
end PandaProbe
