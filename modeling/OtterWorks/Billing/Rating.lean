import OtterWorks.Billing.Catalog
import OtterWorks.Lib.Calendar
import OtterWorks.Lib.FirstMax
import OtterWorks.Lib.Fallible
import OtterWorks.Lib.Rounding
import OtterWorks.Lib.Upsert
import Mathlib.Data.Nat.Log

namespace OtterWorks.Billing

/-- A row of `usage_events`; its time is the day it falls on. -/
structure UsageEvent where
  tenantId : Uuid
  occurredOn : Int
  units : Int
  units_pos : 0 < units
  deriving DecidableEq

structure RatingPeriod where
  id : Uuid
  tenantId : Uuid
  periodStart : Int
  periodEnd : Int
  ordered : periodStart ≤ periodEnd
  deriving DecidableEq

/-- A row of `rating_results`; `rolloverUnits` is what the period leaves of its quota. -/
structure RatingResult where
  id : Uuid
  periodId : Uuid
  subscriptionId : Uuid
  usedUnits : Int
  quotaUnits : Int
  rolloverUnits : Int
  billableUnits : Int
  overageAmount : ℚ
  createdAt : Int
  nonneg : 0 ≤ usedUnits ∧ 0 ≤ quotaUnits ∧ 0 ≤ rolloverUnits ∧ 0 ≤ billableUnits ∧ 0 ≤ overageAmount
  deriving DecidableEq

/-- What the rating procedures read, and the two tables they write. -/
structure Usage (c : Catalog) where
  subscriptions : Subscriptions c
  events : List UsageEvent
  periods : List RatingPeriod
  results : List RatingResult

/-- The uuids that the procedures derive with `md5`. -/
structure Md5Ids where
  periodId : Uuid → Int → Uuid
  resultId : Uuid → Uuid
  invoiceId : Uuid → Uuid
  lineId : Uuid → Nat → Uuid

/-- The orders in which the queries for the subscription of a period read it: each takes any of equal `starts_on`. -/
structure Reads where
  finalize : Scan Subscription
  rating : Scan Subscription
  preview : Scan Subscription

def int4 (n : Int) : Except SqlError Int :=
  if -2 ^ 31 ≤ n ∧ n < 2 ^ 31 then .ok n else .error .numericOutOfRange

/-- A value stored in a column `numeric(12, 2)`. -/
def numeric12 (x : ℚ) : Except SqlError ℚ :=
  if |roundHalfAway 2 x| < 10 ^ 10 then .ok (roundHalfAway 2 x) else .error .numericOutOfRange

/-- The first base 10000 digit of a positive number and the power of its place. -/
def leading (n : Nat) : Nat × Nat := (n / 10000 ^ Nat.log 10000 n, Nat.log 10000 n)

/-- The scale of a `numeric` quotient: at least 16 significant digits, as far as the leading digits tell. -/
def divScale (a b : Nat) : Nat :=
  let weight : Int := (leading a).2 - (leading b).2 - if (leading a).1 ≤ (leading b).1 then 1 else 0
  (16 - 4 * weight).toNat

def numericDiv (a b : Nat) : ℚ := roundHalfAway (divScale a b) (a / b)

def Subscription.covers (tenant : Uuid) (periodStart periodEnd : Int) (s : Subscription) : Bool :=
  s.tenantId = tenant ∧ s.startsOn ≤ periodEnd ∧ ∀ e ∈ s.endsOn, periodStart ≤ e

namespace Usage

variable {c : Catalog}

def subscription (scan : Scan Subscription) (u : Usage c) (tenant : Uuid) (periodStart periodEnd : Int) :
    Option Subscription :=
  firstMax Subscription.startsOn
    ((scan.order u.subscriptions.rows).filter (Subscription.covers tenant periodStart periodEnd))

/-- The subscription of a period with its plan. -/
def planOf (scan : Scan Subscription) (u : Usage c) (tenant : Uuid) (periodStart periodEnd : Int) :
    Option (Subscription × Plan) :=
  (u.subscription scan tenant periodStart periodEnd).bind fun s => (c.plan? s.planId).map fun p => (s, p)

def used (u : Usage c) (tenant : Uuid) (periodStart periodEnd : Int) : Int :=
  ((u.events.filter fun e => e.tenantId = tenant ∧ periodStart ≤ e.occurredOn ∧ e.occurredOn ≤ periodEnd).map
    UsageEvent.units).sum

/-- The results of a tenant's periods that satisfy a condition: `rating_results JOIN rating_periods`. -/
def resultsOf (u : Usage c) (tenant : Uuid) (inWindow : RatingPeriod → Bool) : List RatingResult :=
  u.results.filter fun r => u.periods.any fun p => p.id = r.periodId && p.tenantId = tenant && inWindow p

def inWindow (periodStart : Int) (p : RatingPeriod) : Bool :=
  p.periodStart < periodStart ∧ Civil.monthsBefore 3 periodStart ≤ p.periodStart

/-- What the periods of the last three months left of their quotas. -/
def prior (u : Usage c) (tenant : Uuid) (periodStart : Int) : Int :=
  ((u.resultsOf tenant (inWindow periodStart)).map RatingResult.rolloverUnits).sum

end Usage

structure UsageRating where
  tenantId : Uuid
  periodStart : Int
  periodEnd : Int
  usedUnits : Int
  quotaUnits : Int
  rolloverUnits : Int
  billableUnits : Int
  firstTierUnits : Int
  secondTierUnits : Int
  overageAmount : ℚ
  deriving DecidableEq

/-- The part of a period from the day the subscription was suspended, if it was suspended during the period. -/
def suspendedPart (s : Subscription) (periodStart periodEnd : Int) : Option ℚ :=
  match s.status, s.suspendedOn with
  | .suspended, some on =>
    if periodStart ≤ on ∧ on ≤ periodEnd then
      some (numericDiv (periodEnd - on + 1).toNat (periodEnd - periodStart + 1).toNat)
    else none
  | _, _ => none

/-- `round(.. * part)`, where the subscription was suspended. -/
def prorate (digits : Nat) (x : ℚ) : Option ℚ → ℚ
  | some part => roundHalfAway digits (x * part)
  | none => x

/-- `fn_usage_rating`; without a subscription the plan's columns are null, and there is no rating. -/
def fnUsageRating (scan : Scan Subscription) {c : Catalog} (u : Usage c) (tenant : Uuid)
    (periodStart periodEnd : Int) : Except SqlError (Option UsageRating) := do
  let used ← int4 (u.used tenant periodStart periodEnd)
  match u.planOf scan tenant periodStart periodEnd with
  | none => .ok none
  | some (subscription, plan) =>
    let twice ← int4 (2 * plan.includedUnits)
    let prior ← int4 (min twice (u.prior tenant periodStart))
    let rollover := min prior twice
    let left ← int4 (used - rollover - plan.includedUnits)
    let billable := max left 0
    let first := min billable 101
    let second := max (billable - 101) 0
    let amount := roundHalfAway 2 (first * plan.overageRate + second * plan.overageRate * (3 / 2))
    let part := suspendedPart subscription periodStart periodEnd
    .ok (some {
      tenantId := tenant
      periodStart := periodStart
      periodEnd := periodEnd
      usedUnits := used
      quotaUnits := plan.includedUnits
      rolloverUnits := rollover
      billableUnits := ⌊prorate 0 billable part⌋
      firstTierUnits := first
      secondTierUnits := second
      overageAmount := prorate 2 amount part })

/-- `UPDATE SET period_end = ..`, with the table's check. -/
def RatingPeriod.extend (periodEnd : Int) (p : RatingPeriod) : RatingPeriod :=
  if ordered : p.periodStart ≤ periodEnd then { p with periodEnd := periodEnd, ordered := ordered } else p

def samePeriod (tenant : Uuid) (periodStart : Int) (p : RatingPeriod) : Bool :=
  p.tenantId = tenant ∧ p.periodStart = periodStart

/-- `INSERT INTO rating_periods .. ON CONFLICT (tenant_id, period_start) DO UPDATE SET period_end = ..`. -/
def upsertPeriod (c : Catalog) (periods : List RatingPeriod) (id tenant : Uuid) (periodStart periodEnd : Int) :
    Except SqlError (List RatingPeriod) :=
  if ordered : periodStart ≤ periodEnd then
    if ¬ periods.any (samePeriod tenant periodStart) ∧ periods.any fun p => p.id = id then .error .uniqueViolation
    else if ¬ periods.any (samePeriod tenant periodStart) ∧ c.tenant? tenant = none then .error .foreignKeyViolation
    else
      .ok (upsert (samePeriod tenant periodStart) (RatingPeriod.extend periodEnd)
        ⟨id, tenant, periodStart, periodEnd, ordered⟩ periods)
  else .error .checkViolation

/-- `UPDATE SET used_units = .., rollover_units = ..`, which leaves `quota_units` as it is. -/
def RatingResult.replace (row r : RatingResult) : RatingResult :=
  { r with
    usedUnits := row.usedUnits
    rolloverUnits := row.rolloverUnits
    billableUnits := row.billableUnits
    overageAmount := row.overageAmount
    nonneg := ⟨row.nonneg.1, r.nonneg.2.1, row.nonneg.2.2⟩ }

/-- `INSERT INTO rating_results .. ON CONFLICT (id) DO UPDATE SET ..`. -/
def upsertResult {c : Catalog} (u : Usage c) (row : RatingResult) : Except SqlError (List RatingResult) :=
  if ¬ (u.results.any fun r => r.id = row.id) ∧ ¬ ((u.periods.any fun p => p.id = row.periodId) ∧
      u.subscriptions.rows.any fun s => s.id = row.subscriptionId) then .error .foreignKeyViolation
  else .ok (upsert (fun r => r.id = row.id) row.replace row u.results)

/-- The row that `sp_finalize_rating` stores for a rating. -/
def ratingRow (ids : Md5Ids) (tenant : Uuid) (periodStart periodEnd : Int) (subscription : Subscription)
    (rating : UsageRating) : Except SqlError RatingResult := do
  let periodId := ids.periodId tenant periodStart
  let overage ← numeric12 rating.overageAmount
  if nonneg : 0 ≤ rating.usedUnits ∧ 0 ≤ rating.quotaUnits ∧ 0 ≤ max (rating.quotaUnits - rating.usedUnits) 0 ∧
      0 ≤ rating.billableUnits ∧ 0 ≤ overage then
    .ok ⟨ids.resultId periodId, periodId, subscription.id, rating.usedUnits, rating.quotaUnits,
      max (rating.quotaUnits - rating.usedUnits) 0, rating.billableUnits, overage, periodEnd, nonneg⟩
  else .error .checkViolation

/-- `sp_finalize_rating`. -/
def spFinalizeRating (ids : Md5Ids) (reads : Reads) {c : Catalog} (tenant : Uuid) (periodStart periodEnd : Int)
    (u : Usage c) : Except SqlError (Usage c) := do
  let subscription := u.subscription reads.finalize tenant periodStart periodEnd
  let periods ← upsertPeriod c u.periods (ids.periodId tenant periodStart) tenant periodStart periodEnd
  let u := { u with periods := periods }
  match ← fnUsageRating reads.rating u tenant periodStart periodEnd, subscription with
  | some rating, some subscription =>
    let row ← ratingRow ids tenant periodStart periodEnd subscription rating
    let results ← upsertResult u row
    .ok { u with results := results }
  | _, _ => .error .notNullViolation

end OtterWorks.Billing
