import Mathlib

/-! # Constants, clocks and plan tiers

The enumerations of `registry/constants.py`, the plan table of
`core/billing/plans.py`, and the three standard-library types the billing code
computes with: UUIDs, aware UTC datetimes and decimals.

A `datetime` is its number of microseconds since the epoch, which is all the
precision Python's type has.  A UUID is its canonical text, so that `str(id)` is
the id itself and Postgres' ordering of UUIDs is the ordering of the texts.
-/
namespace PandaProbe

/-- A UUID in its canonical text form. -/
abbrev UUID := String

/-- An aware UTC `datetime`, in microseconds since the epoch. -/
abbrev DateTime := Int

namespace DateTime

/-- `timedelta(seconds=n)`. -/
def seconds (n : Int) : Int := n * 1000000

/-- `timedelta(hours=n)`. -/
def hours (n : Int) : Int := seconds (n * 3600)

/-- `timedelta(days=n)`. -/
def days (n : Int) : Int := seconds (n * 86400)

/-- `datetime.fromtimestamp(s, tz=timezone.utc)` of a whole number of seconds. -/
def fromTimestamp (s : Int) : DateTime := seconds s

/-- `int(t.timestamp())`: truncation towards zero. -/
def timestamp (t : DateTime) : Int := t.tdiv 1000000

/-- The UTC calendar day of an instant, counted from 1970-01-01. -/
def dayNumber (t : DateTime) : Int := t / days 1

/-- Year, month and day of month of a day number, in the proleptic Gregorian
calendar.  The years are counted from March, which puts the leap day last. -/
def civil (day : Int) : Int × Int × Int :=
  let z := day + 719468
  let era := z / 146097
  let doe := z % 146097
  let yoe := (doe - doe / 1460 + doe / 36524 - doe / 146096) / 365
  let doy := doe - (365 * yoe + yoe / 4 - yoe / 100)
  let mp := (5 * doy + 2) / 153
  let month := if mp < 10 then mp + 3 else mp - 9
  (yoe + era * 400 + (if month ≤ 2 then 1 else 0), month, doy - (153 * mp + 2) / 5 + 1)

/-- `%02d` on a value below 100. -/
def twoDigits (n : Int) : String :=
  if n < 10 then "0" ++ toString n else toString n

/-- `t.strftime("%Y-%m-%d")`, which is also `str(t.date())`. -/
def isoDate (t : DateTime) : String :=
  let (year, month, day) := civil (dayNumber t)
  toString year ++ "-" ++ twoDigits month ++ "-" ++ twoDigits day

example : isoDate (fromTimestamp 951782400) = "2000-02-29" := by decide +kernel

end DateTime

/-- A non-negative `Decimal`: `coeff` scaled down by `10 ^ scale`. -/
structure Decimal where
  coeff : Nat
  scale : Nat
  deriving DecidableEq, Repr

namespace Decimal

/-- `str` of a decimal whose exponent is small enough for plain notation. -/
def str (d : Decimal) : String :=
  if d.scale = 0 then toString d.coeff
  else
    let frac := toString (d.coeff % 10 ^ d.scale)
    toString (d.coeff / 10 ^ d.scale) ++ "." ++
      String.ofList (List.replicate (d.scale - frac.length) '0') ++ frac

/-- `int((d * units * 100).quantize(Decimal("1"), rounding=ROUND_HALF_UP))`, the
price of `units` units in cents.  Half a cent goes up. -/
def cents (d : Decimal) (units : Int) : Int :=
  (2 * (d.coeff * units * 100) + 10 ^ d.scale) / (2 * 10 ^ d.scale)

end Decimal

/-- Tier of an organization's subscription. -/
inductive SubscriptionPlan
  | hobby | pro | startup | enterprise | development
  deriving DecidableEq, Repr

/-- Lifecycle status of a Stripe-backed subscription. -/
inductive SubscriptionStatus
  | active | pastDue | canceled | incomplete
  deriving DecidableEq, Repr

/-- Billable usage categories tracked per billing period. -/
inductive UsageCategory
  | traces | traceEvals | sessionEvals
  deriving DecidableEq, Repr

namespace UsageCategory

/-- The enumeration's string value. -/
def value : UsageCategory → String
  | traces => "traces"
  | traceEvals => "trace_evals"
  | sessionEvals => "session_evals"

/-- The keys of `_COUNTERS`, in order. -/
def all : List UsageCategory := [traces, traceEvals, sessionEvals]

theorem mem_all (c : UsageCategory) : c ∈ all := by
  cases c <;> simp [all]

instance : Fintype UsageCategory where
  elems := ⟨all, by decide⟩
  complete := mem_all

end UsageCategory

/-- Static configuration for a subscription plan tier; `none` is unlimited. -/
structure PlanConfig where
  baseTraces : Option Int
  baseTraceEvals : Option Int
  baseSessionEvals : Option Int
  payAsYouGo : Bool
  deriving DecidableEq, Repr

/-- `PLAN_LIMITS`. -/
def planLimits : SubscriptionPlan → PlanConfig
  | .hobby => ⟨some 100, some 100, some 10, false⟩
  | .pro => ⟨some 5000, some 5000, some 100, true⟩
  | .startup => ⟨some 50000, some 50000, some 1000, true⟩
  | .enterprise => ⟨some 0, some 0, some 0, true⟩
  | .development => ⟨none, none, none, false⟩

/-- `OVERAGE_UNIT_PRICE = Decimal("0.004")`. -/
def overageUnitPrice : Decimal := ⟨4, 3⟩

example : overageUnitPrice.str = "0.004" ∧ overageUnitPrice.cents 1000 = 400 := by decide +kernel

/-- Return the static configuration for a plan tier. -/
def getPlanConfig (plan : SubscriptionPlan) : PlanConfig := planLimits plan

/-- Return the included-unit count for a usage category under the given plan. -/
def getLimitForCategory (plan : SubscriptionPlan) (category : UsageCategory) : Option Int :=
  let cfg := planLimits plan
  match category with
  | .traces => cfg.baseTraces
  | .traceEvals => cfg.baseTraceEvals
  | .sessionEvals => cfg.baseSessionEvals

/-- `getattr(plan, base) or 0`: the included allowance, none at all when unlimited. -/
def SubscriptionPlan.base (plan : SubscriptionPlan) (category : UsageCategory) : Int :=
  (getLimitForCategory plan category).getD 0

theorem SubscriptionPlan.base_nonneg (plan : SubscriptionPlan) (category : UsageCategory) :
    0 ≤ plan.base category := by
  cases plan <;> cases category <;> decide

end PandaProbe
