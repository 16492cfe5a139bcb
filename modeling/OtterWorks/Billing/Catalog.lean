import OtterWorks.Lib.Rounding
import Mathlib.Algebra.Order.Ring.Int
import Mathlib.Data.Rat.Defs
import Mathlib.Data.List.Nodup

namespace OtterWorks.Billing

abbrev Uuid := Nat

inductive TenantStatus
  | active
  | suspended
  deriving DecidableEq, Repr

structure Tenant where
  id : Uuid
  taxExempt : Bool
  status : TenantStatus
  deriving DecidableEq, Repr

inductive Tier
  | starter
  | growth
  | scale
  deriving DecidableEq, Repr

/-- A row of `plans`, with its checks. -/
structure Plan where
  id : Uuid
  code : String
  tier : Tier
  monthlyFee : ℚ
  includedUnits : Nat
  overageRate : ℚ
  active : Bool
  monthlyFee_nonneg : 0 ≤ monthlyFee
  overageRate_nonneg : 0 ≤ overageRate
  deriving DecidableEq

/-- A row of `credit_notes`; its two amounts are stored as `numeric(12, 2)`. -/
structure CreditNote where
  id : Uuid
  tenantId : Uuid
  issuedOn : Int
  amount : ℚ
  remainingAmount : ℚ
  amount_pos : 0 < amount
  remaining_nonneg : 0 ≤ remainingAmount
  remaining_le : remainingAmount ≤ amount
  amount_lt : amount < 10 ^ 10
  cents : HasDigits 2 remainingAmount
  deriving DecidableEq

inductive SubscriptionStatus
  | active
  | suspended
  | cancelled
  deriving DecidableEq, Repr

/-- A row of `subscriptions`, with its two checks; a `date` is a number of days. -/
structure Subscription where
  id : Uuid
  tenantId : Uuid
  planId : Uuid
  startsOn : Int
  endsOn : Option Int
  status : SubscriptionStatus
  suspendedOn : Option Int
  endsAfterStart : ∀ e ∈ endsOn, startsOn ≤ e
  suspendedAfterStart : ∀ e ∈ suspendedOn, startsOn ≤ e
  deriving DecidableEq

/-- The tables `tenants` and `plans`, with the keys that are unique. -/
structure Catalog where
  tenants : List Tenant
  plans : List Plan
  tenantIds : (tenants.map Tenant.id).Nodup
  planIds : (plans.map Plan.id).Nodup
  planCodes : (plans.map Plan.code).Nodup

namespace Catalog

def tenant? (c : Catalog) (id : Uuid) : Option Tenant := c.tenants.find? fun t => t.id = id

def plan? (c : Catalog) (id : Uuid) : Option Plan := c.plans.find? fun p => p.id = id

theorem plan?_some {c : Catalog} {id : Uuid} {p : Plan} (h : c.plan? id = some p) : p ∈ c.plans ∧ p.id = id :=
  ⟨List.mem_of_find?_eq_some h, by simpa using List.find?_some h⟩

theorem plan?_code {c : Catalog} {i j : Uuid} {p q : Plan} (hp : c.plan? i = some p) (hq : c.plan? j = some q)
    (same : p.code = q.code) : i = j := by
  obtain ⟨pmem, pid⟩ := plan?_some hp
  obtain ⟨qmem, qid⟩ := plan?_some hq
  have : p = q := List.inj_on_of_nodup_map c.planCodes pmem qmem same
  rw [← pid, ← qid, this]

end Catalog

/-- The table `subscriptions`, with its primary key and its foreign keys. -/
structure Subscriptions (c : Catalog) where
  rows : List Subscription
  ids : (rows.map Subscription.id).Nodup
  references : ∀ s ∈ rows, (c.tenant? s.tenantId).isSome ∧ (c.plan? s.planId).isSome

inductive SqlError
  | uniqueViolation
  | foreignKeyViolation
  | notNullViolation
  | checkViolation
  | numericOutOfRange
  deriving DecidableEq, Repr

/-! What the samples have in common: `STARTER` at 49 and a unit at 1, one tenant and his subscription without an end. -/

theorem starterFee_nonneg : (0 : ℚ) ≤ 49 := by decide

theorem unitRate_nonneg : (0 : ℚ) ≤ 1 := by decide

theorem oneTenant_ids : ([⟨1, false, .active⟩].map Tenant.id).Nodup := List.nodup_singleton _

theorem no_end : ∀ e ∈ (none : Option Int), (0 : Int) ≤ e := by simp

theorem oneSubscription_ids : ([⟨1, 1, 1, 0, none, .active, none, no_end, no_end⟩].map Subscription.id).Nodup :=
  List.nodup_singleton _

end OtterWorks.Billing
