import OtterWorks.Billing.Catalog
import OtterWorks.Lib.Fallible
import OtterWorks.Lib.FirstMax
import OtterWorks.Lib.Transition
import OtterWorks.Lib.Validity

namespace OtterWorks.Billing

structure Entitlement where
  tenantId : Uuid
  planCode : String
  tier : Tier
  monthlyFee : ℚ
  includedUnits : Nat
  subscriptionStatus : SubscriptionStatus
  effectiveOn : Int
  deriving DecidableEq

namespace Subscription

def validity (s : Subscription) : Validity Int := ⟨s.startsOn, s.endsOn⟩

def inForce (tenant : Uuid) (on : Int) (s : Subscription) : Bool := s.tenantId = tenant ∧ s.validity.Contains on

/-- Open rows that a change effective on this date closes. -/
def precedes (tenant : Uuid) (effectiveOn : Int) (s : Subscription) : Bool :=
  s.tenantId = tenant ∧ s.endsOn = none ∧ s.startsOn < effectiveOn

/-- `CASE WHEN status = 'cancelled' THEN status ELSE 'active' END`. -/
def nextStatus (s : Subscription) : SubscriptionStatus :=
  if s.status = .cancelled then s.status else .active

/-- `UPDATE .. SET ends_on = .., status = ..` of one row. -/
def setEnd (endsOn : Int) (status : SubscriptionStatus) (s : Subscription) : Except SqlError Subscription :=
  if h : s.startsOn ≤ endsOn then
    .ok { s with endsOn := some endsOn, status := status, endsAfterStart := by simpa using h }
  else .error .checkViolation

end Subscription

/-- `INSERT INTO subscriptions (id, tenant_id, plan_id, starts_on, status) VALUES (.., 'active')`. -/
def insertSubscription (c : Catalog) (rows : List Subscription) (id tenant plan : Uuid) (startsOn : Int) :
    Except SqlError (Subscriptions c) :=
  let rows := rows ++ [⟨id, tenant, plan, startsOn, none, .active, none, by simp, by simp⟩]
  if ids : (rows.map Subscription.id).Nodup then
    if references : ∀ s ∈ rows, (c.tenant? s.tenantId).isSome ∧ (c.plan? s.planId).isSome then
      .ok ⟨rows, ids, references⟩
    else .error .foreignKeyViolation
  else .error .uniqueViolation

/-- `sp_change_plan`; `md5Id` is the uuid of the texts of tenant, plan and date. -/
def spChangePlan (md5Id : Uuid → Uuid → Int → Uuid) {c : Catalog} (tenant plan : Uuid) (effectiveOn : Int)
    (subscriptions : Subscriptions c) : Except SqlError (Subscriptions c) := do
  let rows ← subscriptions.rows.mapM fun s =>
    if s.precedes tenant effectiveOn then s.setEnd (effectiveOn - 1) s.nextStatus else .ok s
  insertSubscription c rows (md5Id tenant plan effectiveOn) tenant plan effectiveOn

/-- The columns of a subscription joined with its tenant and its plan. -/
def entitlementOf (c : Catalog) (on : Int) (s : Subscription) : Option Entitlement :=
  (c.tenant? s.tenantId).bind fun t => (c.plan? s.planId).map fun p =>
    ⟨t.id, p.code, p.tier, p.monthlyFee, p.includedUnits, s.status, max s.startsOn on⟩

/-- `fn_entitlement`, with the order in which the rows are read: `LIMIT 1` takes any of equal `starts_on`. -/
def fnEntitlement {c : Catalog} (scan : Scan Subscription) (subscriptions : Subscriptions c) (tenant : Uuid)
    (on : Int) : Option Entitlement :=
  (firstMax Subscription.startsOn ((scan.order subscriptions.rows).filter (Subscription.inForce tenant on))).bind
    (entitlementOf c on)

/-! The extracted `billing-service`. -/

structure EntitlementRow where
  tenantId : Uuid
  planCode : String
  tier : Tier
  monthlyFee : ℚ
  includedUnits : Nat
  subscriptionStatus : SubscriptionStatus
  endsOn : Option Int
  startsOn : Int
  deriving DecidableEq

def joinRow (c : Catalog) (s : Subscription) : Option EntitlementRow :=
  (c.tenant? s.tenantId).bind fun t => (c.plan? s.planId).map fun p =>
    ⟨t.id, p.code, p.tier, p.monthlyFee, p.includedUnits, s.status, s.endsOn, s.startsOn⟩

def findEntitlements {c : Catalog} (scan : Scan Subscription) (subscriptions : Subscriptions c) (tenant : Uuid) :
    List EntitlementRow :=
  ((scan.order subscriptions.rows).filter fun s => s.tenantId = tenant).filterMap (joinRow c)

def EntitlementRow.eligible (tenant : Uuid) (on : Int) (row : EntitlementRow) : Bool :=
  row.tenantId = tenant ∧ row.startsOn ≤ on ∧ ∀ e ∈ row.endsOn, on ≤ e

def entitlement (rows : List EntitlementRow) (tenant : Uuid) (on : Int) : Option EntitlementRow :=
  firstMax EntitlementRow.startsOn (rows.filter (EntitlementRow.eligible tenant on))

/-- The answer of `get_entitlement`; `none` is its 404. -/
def getEntitlement {c : Catalog} (scan : Scan Subscription) (subscriptions : Subscriptions c) (tenant : Uuid)
    (on : Int) : Option Entitlement :=
  (entitlement (findEntitlements scan subscriptions tenant) tenant on).map fun row =>
    ⟨row.tenantId, row.planCode, row.tier, row.monthlyFee, row.includedUnits, row.subscriptionStatus,
      max row.startsOn on⟩

def listSubscriptions (scan : Scan Subscription) (rows : List Subscription) (tenant : Uuid) : List Subscription :=
  (scan.order rows).filter fun s => s.tenantId = tenant

def updateSubscription (rows : List Subscription) (id : Uuid) (endsOn : Int) (status : SubscriptionStatus) :
    Except SqlError (List Subscription) :=
  rows.mapM fun s => if s.id = id then s.setEnd endsOn status else .ok s

/-- `change_plan`; `uuid5Id` is the name-based uuid of the texts of tenant, plan and date. -/
def changePlan (uuid5Id : Uuid → Uuid → Int → Uuid) {c : Catalog} (scan : Scan Subscription) (tenant plan : Uuid)
    (effectiveOn : Int) (subscriptions : Subscriptions c) : Except SqlError (Subscriptions c) := do
  let rows ← (listSubscriptions scan subscriptions.rows tenant).foldlM (fun rows s =>
    if s.endsOn = none ∧ s.startsOn < effectiveOn then
      updateSubscription rows s.id (effectiveOn - 1) s.nextStatus
    else .ok rows) subscriptions.rows
  insertSubscription c rows (uuid5Id tenant plan effectiveOn) tenant plan effectiveOn

/-- What a change effective on a date makes of a stored row. -/
structure Changed (tenant : Uuid) (effectiveOn : Int) (s s' : Subscription) : Prop where
  id : s'.id = s.id
  tenantId : s'.tenantId = s.tenantId
  planId : s'.planId = s.planId
  startsOn : s'.startsOn = s.startsOn
  suspendedOn : s'.suspendedOn = s.suspendedOn
  endsOn : s'.endsOn = if s.precedes tenant effectiveOn then some (effectiveOn - 1) else s.endsOn
  status : s'.status = if s.precedes tenant effectiveOn then s.nextStatus else s.status

/-- The row that an accepted change inserts. -/
structure Opened (id tenant plan : Uuid) (startsOn : Int) (s : Subscription) : Prop where
  id : s.id = id
  tenantId : s.tenantId = tenant
  planId : s.planId = plan
  startsOn : s.startsOn = startsOn
  endsOn : s.endsOn = none
  status : s.status = .active
  suspendedOn : s.suspendedOn = none

theorem setEnd_ok {e : Int} {status : SubscriptionStatus} {s s' : Subscription} (h : s.setEnd e status = .ok s') :
    s'.id = s.id ∧ s'.tenantId = s.tenantId ∧ s'.planId = s.planId ∧ s'.startsOn = s.startsOn ∧
      s'.suspendedOn = s.suspendedOn ∧ s'.endsOn = some e ∧ s'.status = status := by
  unfold Subscription.setEnd at h
  split at h
  next =>
    cases Except.ok.inj h
    exact ⟨rfl, rfl, rfl, rfl, rfl, rfl, rfl⟩
  next => cases h

theorem insertSubscription_ok {c : Catalog} {rows : List Subscription} {id tenant plan : Uuid} {startsOn : Int}
    {table : Subscriptions c} (h : insertSubscription c rows id tenant plan startsOn = .ok table) :
    ∃ s, table.rows = rows ++ [s] ∧ Opened id tenant plan startsOn s := by
  unfold insertSubscription at h
  simp only at h
  split at h
  next =>
    split at h
    next =>
      cases Except.ok.inj h
      exact ⟨_, rfl, ⟨rfl, rfl, rfl, rfl, rfl, rfl, rfl⟩⟩
    next => cases h
  next => cases h

theorem spChangePlan_ok {md5Id : Uuid → Uuid → Int → Uuid} {c : Catalog} {tenant plan : Uuid} {effectiveOn : Int}
    {table table' : Subscriptions c} (h : spChangePlan md5Id tenant plan effectiveOn table = .ok table') :
    ∃ closed s, List.Forall₂ (Changed tenant effectiveOn) table.rows closed ∧ table'.rows = closed ++ [s] ∧
      Opened (md5Id tenant plan effectiveOn) tenant plan effectiveOn s := by
  obtain ⟨closed, updated, h⟩ := bind_ok h
  obtain ⟨s, rows, opened⟩ := insertSubscription_ok h
  refine ⟨closed, s, ?_, rows, opened⟩
  apply (mapM_ok.mp updated).imp
  intro r r' hr
  by_cases before : r.precedes tenant effectiveOn = true
  · rw [if_pos before] at hr
    obtain ⟨id, tenantId, planId, startsOn, suspendedOn, endsOn, status⟩ := setEnd_ok hr
    exact ⟨id, tenantId, planId, startsOn, suspendedOn, by rw [if_pos before, endsOn], by rw [if_pos before, status]⟩
  · rw [if_neg before] at hr
    cases Except.ok.inj hr
    exact ⟨rfl, rfl, rfl, rfl, rfl, by rw [if_neg before], by rw [if_neg before]⟩

section Loop

variable {tenant : Uuid} {effectiveOn : Int}

/-- The rows of the table when `change_plan` has updated the listed ones. -/
def PartlyChanged (tenant : Uuid) (effectiveOn : Int) (listed : List Subscription) (s s' : Subscription) : Prop :=
  (s ∈ listed → Changed tenant effectiveOn s s') ∧ (s ∉ listed → s' = s)

theorem PartlyChanged.id {listed : List Subscription} {s s' : Subscription}
    (h : PartlyChanged tenant effectiveOn listed s s') : s'.id = s.id := by
  by_cases hs : s ∈ listed
  · exact (h.1 hs).id
  · rw [h.2 hs]

theorem changed_same {s : Subscription} (h : s.precedes tenant effectiveOn = false) :
    Changed tenant effectiveOn s s :=
  ⟨rfl, rfl, rfl, rfl, rfl, by simp [h], by simp [h]⟩

theorem updateSubscription_ok {table : List Subscription} (ids : (table.map Subscription.id).Nodup)
    {listed rows rows' : List Subscription} {x : Subscription} (member : x ∈ table) (fresh : x ∉ listed)
    (before : x.precedes tenant effectiveOn = true)
    (partly : List.Forall₂ (PartlyChanged tenant effectiveOn listed) table rows)
    (h : updateSubscription rows x.id (effectiveOn - 1) x.nextStatus = .ok rows') :
    List.Forall₂ (PartlyChanged tenant effectiveOn (listed ++ [x])) table rows' := by
  have both := List.forall₂_iff_get.mp (mapM_ok.mp h)
  have old := List.forall₂_iff_get.mp partly
  rw [List.forall₂_iff_get]
  refine ⟨old.1.trans both.1, ?_⟩
  intro i hi hi'
  have hrow : i < rows.length := old.1 ▸ hi
  have was := old.2 i hi hrow
  have now := both.2 i hrow hi'
  simp only [List.get_eq_getElem] at was now ⊢
  by_cases same : rows[i].id = x.id
  · rw [if_pos same] at now
    have here : table[i] = x := by
      apply List.inj_on_of_nodup_map ids (List.getElem_mem hi) member
      rw [← same, was.id]
    have unchanged : rows[i] = table[i] := was.2 (by rw [here]; exact fresh)
    obtain ⟨id, tenantId, planId, startsOn, suspendedOn, endsOn, status⟩ := setEnd_ok now
    rw [unchanged] at id tenantId planId startsOn suspendedOn
    rw [← here] at before status
    have changed : Changed tenant effectiveOn table[i] rows'[i] :=
      ⟨id, tenantId, planId, startsOn, suspendedOn, by rw [if_pos before, endsOn], by rw [if_pos before, status]⟩
    exact ⟨fun _ => changed, fun out => absurd (by rw [here]; simp) out⟩
  · rw [if_neg same] at now
    have kept : rows'[i] = rows[i] := (Except.ok.inj now).symm
    have other : table[i] ≠ x := fun here => same (by rw [was.id, here])
    rw [kept]
    constructor
    · intro hs
      rcases List.mem_append.mp hs with hs | hs
      · exact was.1 hs
      · exact absurd (by simpa using hs) other
    · intro hs
      exact was.2 fun inside => hs (List.mem_append_left _ inside)

theorem changeLoop_ok {table : List Subscription} (ids : (table.map Subscription.id).Nodup)
    {todo listed rows rows' : List Subscription} (member : ∀ s ∈ todo, s ∈ table ∧ s.tenantId = tenant)
    (distinct : (listed ++ todo).Nodup)
    (partly : List.Forall₂ (PartlyChanged tenant effectiveOn listed) table rows)
    (h : todo.foldlM (fun rows s =>
      if s.endsOn = none ∧ s.startsOn < effectiveOn then updateSubscription rows s.id (effectiveOn - 1) s.nextStatus
      else .ok rows) rows = .ok rows') :
    List.Forall₂ (PartlyChanged tenant effectiveOn (listed ++ todo)) table rows' := by
  induction todo generalizing listed rows with
  | nil =>
    cases Except.ok.inj h
    simpa using partly
  | cons x todo ih =>
    rw [List.foldlM_cons] at h
    obtain ⟨next, first, rest⟩ := bind_ok h
    obtain ⟨xmem, xtenant⟩ := member x (List.mem_cons_self ..)
    have split : listed ++ x :: todo = (listed ++ [x]) ++ todo := by simp
    rw [split] at distinct ⊢
    have fresh : x ∉ listed := by
      have := (List.nodup_append.mp (List.nodup_append.mp distinct).1).2.2
      exact fun hx => this x hx x (by simp) rfl
    apply ih (fun s hs => member s (List.mem_cons_of_mem _ hs)) distinct ?_ rest
    by_cases before : x.endsOn = none ∧ x.startsOn < effectiveOn
    · rw [if_pos before] at first
      exact updateSubscription_ok ids xmem fresh (by simp [Subscription.precedes, xtenant, before]) partly first
    · rw [if_neg before] at first
      cases Except.ok.inj first
      apply partly.imp
      intro s s' hs
      constructor
      · intro inside
        rcases List.mem_append.mp inside with inside | inside
        · exact hs.1 inside
        · have here : s = x := by simpa using inside
          subst here
          rw [hs.2 fresh]
          exact changed_same (by simpa [Subscription.precedes, xtenant] using before)
      · intro outside
        exact hs.2 fun inside => outside (List.mem_append_left _ inside)

end Loop

/-- `change_plan` changes the stored rows as `sp_change_plan` does. -/
theorem changePlan_ok {uuid5Id : Uuid → Uuid → Int → Uuid} {c : Catalog} {scan : Scan Subscription}
    {tenant plan : Uuid} {effectiveOn : Int} {table table' : Subscriptions c}
    (h : changePlan uuid5Id scan tenant plan effectiveOn table = .ok table') :
    ∃ closed s, List.Forall₂ (Changed tenant effectiveOn) table.rows closed ∧ table'.rows = closed ++ [s] ∧
      Opened (uuid5Id tenant plan effectiveOn) tenant plan effectiveOn s := by
  obtain ⟨closed, looped, h⟩ := bind_ok h
  obtain ⟨s, rows, opened⟩ := insertSubscription_ok h
  refine ⟨closed, s, ?_, rows, opened⟩
  have listedMem : ∀ s, s ∈ listSubscriptions scan table.rows tenant ↔ s ∈ table.rows ∧ s.tenantId = tenant := by
    intro s
    simp [listSubscriptions, Scan.mem_order]
  have distinct : (listSubscriptions scan table.rows tenant).Nodup := by
    apply List.Nodup.filter
    exact (scan.perm table.rows).nodup_iff.mpr (List.Nodup.of_map _ table.ids)
  have none : List.Forall₂ (PartlyChanged tenant effectiveOn []) table.rows table.rows :=
    List.forall₂_same.mpr fun _ _ => ⟨fun h => absurd h (by simp), fun _ => rfl⟩
  have done := changeLoop_ok table.ids (fun s hs => (listedMem s).mp hs) (by simpa using distinct) none looped
  have all := List.forall₂_iff_get.mp done
  rw [List.forall₂_iff_get]
  refine ⟨all.1, ?_⟩
  intro i hi hi'
  have partly := all.2 i hi hi'
  simp only [List.nil_append] at partly
  by_cases listed : table.rows.get ⟨i, hi⟩ ∈ listSubscriptions scan table.rows tenant
  · exact partly.1 listed
  · rw [partly.2 listed]
    apply changed_same
    unfold Subscription.precedes
    rw [decide_eq_false_iff_not]
    intro before
    exact listed ((listedMem _).mpr ⟨List.get_mem .., before.1⟩)

end OtterWorks.Billing
