import OtterWorks.Billing.PlanHistory

namespace OtterWorks.Billing

variable {c : Catalog}

/-- The two databases: the legacy one and the one of the extracted service. -/
structure Billings (c : Catalog) where
  legacy : Subscriptions c
  service : Subscriptions c

/-- A plan change, with the order in which the service lists the tenant's rows. -/
structure PlanChange where
  tenant : Uuid
  plan : Uuid
  effectiveOn : Int
  scan : Scan Subscription

/-- The uuids the two implementations derive from the texts of tenant, plan and date. -/
structure ChangeIds where
  md5Id : Uuid → Uuid → Int → Uuid
  uuid5Id : Uuid → Uuid → Int → Uuid

def PlanChange.Accepted (ids : ChangeIds) (b : Billings c) (ch : PlanChange) (b' : Billings c) : Prop :=
  spChangePlan ids.md5Id ch.tenant ch.plan ch.effectiveOn b.legacy = .ok b'.legacy ∧
    changePlan ids.uuid5Id ch.scan ch.tenant ch.plan ch.effectiveOn b.service = .ok b'.service

/-- A change that either side refuses is rolled back and is none of the sequence's. -/
def Billings.after (ids : ChangeIds) (b : Billings c) (ch : PlanChange) : Billings c :=
  match spChangePlan ids.md5Id ch.tenant ch.plan ch.effectiveOn b.legacy,
    changePlan ids.uuid5Id ch.scan ch.tenant ch.plan ch.effectiveOn b.service with
  | .ok legacy, .ok service => ⟨legacy, service⟩
  | _, _ => b

theorem after_cases (ids : ChangeIds) (b : Billings c) (ch : PlanChange) :
    ch.Accepted ids b (b.after ids ch) ∨ (b.after ids ch = b ∧ ¬ ∃ b', ch.Accepted ids b b') := by
  unfold Billings.after PlanChange.Accepted
  cases hl : spChangePlan ids.md5Id ch.tenant ch.plan ch.effectiveOn b.legacy with
  | error e => exact Or.inr ⟨rfl, by simp⟩
  | ok legacy =>
    cases hs : changePlan ids.uuid5Id ch.scan ch.tenant ch.plan ch.effectiveOn b.service with
    | error e => exact Or.inr ⟨rfl, by simp⟩
    | ok service => exact Or.inl ⟨rfl, rfl⟩

/-- The change that decides on a date: of the rows, which stand in the order their changes were accepted, the
last of those that start latest. -/
def governing (rows : List Subscription) (tenant : Uuid) (on : Int) : Option Subscription :=
  firstMax Subscription.startsOn (rows.reverse.filter fun s => s.tenantId = tenant ∧ s.startsOn ≤ on)

/-- Whatever order rows are read in, both services answer the same, with the plan of the governing change. -/
structure Governed (b : Billings c) : Prop where
  parity : ∀ tenant on (scan scan' : Scan Subscription),
    getEntitlement scan' b.service tenant on = fnEntitlement scan b.legacy tenant on
  plan : ∀ tenant on (scan : Scan Subscription) s, governing b.legacy.rows tenant on = some s →
    (fnEntitlement scan b.legacy tenant on).map Entitlement.planCode = (c.plan? s.planId).map Plan.code

/-- Equal but for the id, which the two sides derive differently. -/
structure SameButId (s t : Subscription) : Prop where
  tenantId : t.tenantId = s.tenantId
  planId : t.planId = s.planId
  startsOn : t.startsOn = s.startsOn
  endsOn : t.endsOn = s.endsOn
  status : t.status = s.status

theorem SameButId.precedes {s t : Subscription} (h : SameButId s t) (tenant : Uuid) (on : Int) :
    t.precedes tenant on = s.precedes tenant on := by
  simp [Subscription.precedes, h.tenantId, h.endsOn, h.startsOn]

theorem SameButId.changed {tenant : Uuid} {on : Int} {s t s' t' : Subscription} (h : SameButId s t)
    (hs : Changed tenant on s s') (ht : Changed tenant on t t') : SameButId s' t' := by
  refine ⟨?_, ?_, ?_, ?_, ?_⟩
  · rw [ht.tenantId, hs.tenantId, h.tenantId]
  · rw [ht.planId, hs.planId, h.planId]
  · rw [ht.startsOn, hs.startsOn, h.startsOn]
  · rw [ht.endsOn, hs.endsOn, h.precedes, h.endsOn]
  · rw [ht.status, hs.status, h.precedes, h.status]
    simp [Subscription.nextStatus, h.status]

/-- What every sequence of changes keeps: the two tables agree, a row is closed only for a later one, and rows
that start together end together unless one of them was made active. -/
structure Kept (b : Billings c) : Prop where
  agree : List.Forall₂ SameButId b.legacy.rows b.service.rows
  contiguous : ∀ s ∈ b.legacy.rows, ∀ e ∈ s.endsOn,
    ∃ s' ∈ b.legacy.rows, s'.tenantId = s.tenantId ∧ s'.startsOn = e + 1
  level : ∀ s ∈ b.legacy.rows, ∀ s' ∈ b.legacy.rows, s.tenantId = s'.tenantId → s.startsOn = s'.startsOn →
    s.endsOn = s'.endsOn ∨ s.status = .active ∨ s'.status = .active

/-- Rows of a tenant that start together have the same plan and status. -/
def Alike (b : Billings c) : Prop :=
  ∀ s ∈ b.legacy.rows, ∀ s' ∈ b.legacy.rows, s.tenantId = s'.tenantId → s.startsOn = s'.startsOn →
    s.planId = s'.planId ∧ s.status = s'.status

/-- A change whose tenant has no row yet that starts on its date, or only such as it would insert itself. -/
def Untied (b : Billings c) (ch : PlanChange) : Prop :=
  ∀ s ∈ b.legacy.rows, s.tenantId = ch.tenant → s.startsOn = ch.effectiveOn →
    s.planId = ch.plan ∧ s.status = .active

section Read

/-- The row starts latest of the tenant's rows that have started. -/
structure Latest (rows : List Subscription) (tenant : Uuid) (on : Int) (s : Subscription) : Prop where
  mem : s ∈ rows
  tenantId : s.tenantId = tenant
  started : s.startsOn ≤ on
  latest : ∀ s' ∈ rows, s'.tenantId = tenant → s'.startsOn ≤ on → s'.startsOn ≤ s.startsOn

def Contiguous (rows : List Subscription) : Prop :=
  ∀ s ∈ rows, ∀ e ∈ s.endsOn, ∃ s' ∈ rows, s'.tenantId = s.tenantId ∧ s'.startsOn = e + 1

variable {rows : List Subscription} {tenant : Uuid} {on : Int}

/-- The latest row to have started is still in force: it ends only where a later one starts. -/
theorem Latest.inForce {s : Subscription} (h : Latest rows tenant on s) (contiguous : Contiguous rows) :
    s.inForce tenant on = true := by
  unfold Subscription.inForce
  rw [decide_eq_true_eq]
  refine ⟨h.tenantId, h.started, ?_⟩
  intro e he
  obtain ⟨s', mem, same, starts⟩ := contiguous s h.mem e he
  have proper := s.endsAfterStart e he
  by_contra past
  have := h.latest s' mem (same.trans h.tenantId) (by rw [starts]; omega)
  omega

theorem started_of_inForce {s : Subscription} (inForce : s.inForce tenant on = true) :
    s.tenantId = tenant ∧ s.startsOn ≤ on := by
  unfold Subscription.inForce at inForce
  rw [decide_eq_true_eq] at inForce
  exact ⟨inForce.1, inForce.2.1⟩

theorem firstMax_scan_latest (contiguous : Contiguous rows) (scan : Scan Subscription) {s : Subscription}
    (h : firstMax Subscription.startsOn ((scan.order rows).filter (Subscription.inForce tenant on)) = some s) :
    Latest rows tenant on s := by
  obtain ⟨mem, top⟩ := firstMax_some h
  rw [List.mem_filter, Scan.mem_order] at mem
  obtain ⟨tenantId, started⟩ := started_of_inForce mem.2
  refine ⟨mem.1, tenantId, started, ?_⟩
  -- a later row would lead to the latest of all, which is in force
  by_contra later
  push Not at later
  obtain ⟨x, hx, xtenant, xstarted, xlater⟩ := later
  obtain ⟨m, hm⟩ : ∃ m, firstMax Subscription.startsOn
      (rows.filter fun s => s.tenantId = tenant ∧ s.startsOn ≤ on) = some m := by
    apply Option.ne_none_iff_exists'.mp
    intro none
    have := firstMax_none.mp none
    have inside : x ∈ rows.filter fun s => s.tenantId = tenant ∧ s.startsOn ≤ on := by
      simp [hx, xtenant, xstarted]
    rw [this] at inside
    cases inside
  obtain ⟨mmem, mtop⟩ := firstMax_some hm
  simp only [List.mem_filter, decide_eq_true_eq] at mmem mtop
  have latest : Latest rows tenant on m :=
    ⟨mmem.1, mmem.2.1, mmem.2.2, fun y hy ht hs => mtop y ⟨hy, ht, hs⟩⟩
  have bound := top m (by rw [List.mem_filter, Scan.mem_order]; exact ⟨mmem.1, latest.inForce contiguous⟩)
  have above := mtop x ⟨hx, xtenant, xstarted⟩
  omega

theorem firstMax_scan_none (contiguous : Contiguous rows) (scan : Scan Subscription)
    (h : firstMax Subscription.startsOn ((scan.order rows).filter (Subscription.inForce tenant on)) = none) :
    ∀ s, ¬ Latest rows tenant on s := by
  intro s latest
  have empty := firstMax_none.mp h
  have inside : s ∈ (scan.order rows).filter (Subscription.inForce tenant on) := by
    rw [List.mem_filter, Scan.mem_order]
    exact ⟨latest.mem, latest.inForce contiguous⟩
  rw [empty] at inside
  cases inside

/-- Each of the latest rows comes first in some order. -/
theorem firstMax_scan_front {s : Subscription} (contiguous : Contiguous rows) (latest : Latest rows tenant on s) :
    firstMax Subscription.startsOn (((Scan.front s).order rows).filter (Subscription.inForce tenant on)) = some s := by
  have order : (Scan.front s).order rows = s :: rows.erase s := if_pos latest.mem
  rw [order, List.filter_cons_of_pos (latest.inForce contiguous)]
  apply firstMax_head
  intro y hy
  rw [List.mem_filter] at hy
  have mem := List.mem_of_mem_erase hy.1
  obtain ⟨tenantId, started⟩ := started_of_inForce hy.2
  exact latest.latest y mem tenantId started

theorem governing_latest {s : Subscription} (h : governing rows tenant on = some s) : Latest rows tenant on s := by
  obtain ⟨mem, top⟩ := firstMax_some h
  simp only [List.mem_filter, List.mem_reverse, decide_eq_true_eq] at mem top
  exact ⟨mem.1, mem.2.1, mem.2.2, fun y hy ht hs => top y ⟨hy, ht, hs⟩⟩

end Read

section Answers

/-- The joined row; every stored row has its tenant and its plan. -/
def joined (c : Catalog) (s : Subscription) : EntitlementRow :=
  (joinRow c s).getD ⟨s.tenantId, "", .starter, 0, 0, s.status, s.endsOn, s.startsOn⟩

theorem joinRow_cases (s : Subscription) : joinRow c s = none ∨
    ∃ row, joinRow c s = some row ∧ row.tenantId = s.tenantId ∧ row.startsOn = s.startsOn ∧ row.endsOn = s.endsOn := by
  unfold joinRow
  cases ht : c.tenant? s.tenantId with
  | none => exact Or.inl rfl
  | some t =>
    cases c.plan? s.planId with
    | none => exact Or.inl rfl
    | some p =>
      have id : t.id = s.tenantId := by simpa using List.find?_some ht
      exact Or.inr ⟨_, rfl, id, rfl, rfl⟩

theorem joined_columns (s : Subscription) : (joined c s).tenantId = s.tenantId ∧
    (joined c s).startsOn = s.startsOn ∧ (joined c s).endsOn = s.endsOn := by
  unfold joined
  rcases joinRow_cases (c := c) s with none | ⟨row, some, same⟩
  · rw [none]
    exact ⟨rfl, rfl, rfl⟩
  · rw [some]
    exact same

theorem joinRow_stored {table : Subscriptions c} {s : Subscription} (mem : s ∈ table.rows) :
    joinRow c s = some (joined c s) := by
  obtain ⟨tenant, plan⟩ := table.references s mem
  obtain ⟨t, ht⟩ := Option.isSome_iff_exists.mp tenant
  obtain ⟨p, hp⟩ := Option.isSome_iff_exists.mp plan
  simp [joined, joinRow, ht, hp]

theorem findEntitlements_eq (scan : Scan Subscription) (table : Subscriptions c) (tenant : Uuid) :
    findEntitlements scan table tenant =
      ((scan.order table.rows).filter fun s => s.tenantId = tenant).map (joined c) := by
  unfold findEntitlements
  rw [← List.filterMap_eq_map]
  apply List.filterMap_congr
  intro s hs
  exact joinRow_stored (Scan.mem_order.mp (List.mem_of_mem_filter hs))

/-- Over one table and one reading order the service answers as the function it was extracted from. -/
theorem getEntitlement_eq (scan : Scan Subscription) (table : Subscriptions c) (tenant : Uuid) (on : Int) :
    getEntitlement scan table tenant on = fnEntitlement scan table tenant on := by
  have key : EntitlementRow.startsOn ∘ joined c = Subscription.startsOn := funext fun s => (joined_columns s).2.1
  have eligible : (EntitlementRow.eligible tenant on ∘ joined c) = Subscription.inForce tenant on := by
    funext s
    obtain ⟨tenantId, startsOn, endsOn⟩ := joined_columns (c := c) s
    simp [EntitlementRow.eligible, Subscription.inForce, Validity.Contains, Subscription.validity, tenantId, startsOn,
      endsOn]
  have narrowed : ((scan.order table.rows).filter fun s => s.tenantId = tenant).filter
      (Subscription.inForce tenant on) = (scan.order table.rows).filter (Subscription.inForce tenant on) := by
    rw [List.filter_filter]
    apply List.filter_congr
    intro s _
    by_cases same : s.tenantId = tenant <;> simp [Subscription.inForce, same]
  unfold getEntitlement entitlement fnEntitlement
  rw [findEntitlements_eq, List.filter_map, eligible, narrowed, firstMax_map, key]
  cases hm : firstMax Subscription.startsOn ((scan.order table.rows).filter (Subscription.inForce tenant on)) with
  | none => rfl
  | some s =>
    have mem : s ∈ table.rows := Scan.mem_order.mp (List.mem_of_mem_filter (firstMax_some hm).1)
    obtain ⟨hasTenant, hasPlan⟩ := table.references s mem
    obtain ⟨t, ht⟩ := Option.isSome_iff_exists.mp hasTenant
    obtain ⟨p, hp⟩ := Option.isSome_iff_exists.mp hasPlan
    simp [joined, joinRow, entitlementOf, ht, hp]

theorem entitlementOf_same {s t : Subscription} (on : Int) (h : SameButId s t) :
    entitlementOf c on t = entitlementOf c on s := by
  simp [entitlementOf, h.tenantId, h.planId, h.status, h.startsOn]

theorem entitlementOf_stored {table : Subscriptions c} {s : Subscription} (mem : s ∈ table.rows) (on : Int) :
    ∃ e, entitlementOf c on s = some e ∧ some e.planCode = (c.plan? s.planId).map Plan.code ∧
      e.subscriptionStatus = s.status := by
  obtain ⟨tenant, plan⟩ := table.references s mem
  obtain ⟨t, ht⟩ := Option.isSome_iff_exists.mp tenant
  obtain ⟨p, hp⟩ := Option.isSome_iff_exists.mp plan
  refine ⟨⟨t.id, p.code, p.tier, p.monthlyFee, p.includedUnits, s.status, max s.startsOn on⟩, ?_, ?_, rfl⟩
  · simp [entitlementOf, ht, hp]
  · simp [hp]

end Answers

theorem Kept.service_contiguous {b : Billings c} (kept : Kept b) : Contiguous b.service.rows := by
  intro t ht e he
  obtain ⟨s, hs, same⟩ := forall₂_right kept.agree ht
  rw [same.endsOn] at he
  obtain ⟨s', hs', tenantId, startsOn⟩ := kept.contiguous s hs e he
  obtain ⟨t', ht', same'⟩ := forall₂_left kept.agree hs'
  exact ⟨t', ht', by rw [same'.tenantId, tenantId, same.tenantId], by rw [same'.startsOn, startsOn]⟩

theorem Kept.latest_right {b : Billings c} (kept : Kept b) {tenant : Uuid} {on : Int} {s t : Subscription}
    (same : SameButId s t) (mem : t ∈ b.service.rows) (h : Latest b.legacy.rows tenant on s) :
    Latest b.service.rows tenant on t := by
  refine ⟨mem, same.tenantId.trans h.tenantId, by rw [same.startsOn]; exact h.started, ?_⟩
  intro t' ht' tenantId started
  obtain ⟨s', hs', same'⟩ := forall₂_right kept.agree ht'
  rw [same'.startsOn] at started ⊢
  rw [same.startsOn]
  exact h.latest s' hs' (same'.tenantId.symm.trans tenantId) started

theorem Kept.latest_left {b : Billings c} (kept : Kept b) {tenant : Uuid} {on : Int} {t : Subscription}
    (h : Latest b.service.rows tenant on t) : ∃ s, SameButId s t ∧ Latest b.legacy.rows tenant on s := by
  obtain ⟨s, hs, same⟩ := forall₂_right kept.agree h.mem
  refine ⟨s, same, hs, same.tenantId.symm.trans h.tenantId, by rw [← same.startsOn]; exact h.started, ?_⟩
  intro s' hs' tenantId started
  obtain ⟨t', ht', same'⟩ := forall₂_left kept.agree hs'
  rw [← same'.startsOn] at started ⊢
  rw [← same.startsOn]
  exact h.latest t' ht' (same'.tenantId.trans tenantId) started

theorem Latest.same_start {rows : List Subscription} {tenant : Uuid} {on : Int} {s s' : Subscription}
    (h : Latest rows tenant on s) (h' : Latest rows tenant on s') : s.startsOn = s'.startsOn := by
  have below := h.latest s' h'.mem h'.tenantId h'.started
  have above := h'.latest s h.mem h.tenantId h.started
  omega

/-- The answers are governed exactly if rows that start together are alike. -/
theorem governed_iff {b : Billings c} (kept : Kept b) : Governed b ↔ Alike b := by
  constructor
  · intro governed s hs s' hs' sameTenant sameStart
    have latest : ∀ x ∈ b.legacy.rows, x.tenantId = s.tenantId → x.startsOn = s.startsOn →
        Latest b.legacy.rows s.tenantId s.startsOn x := fun x hx ht hstart =>
      ⟨hx, ht, le_of_eq hstart, fun y _ _ started => by rw [hstart]; exact started⟩
    obtain ⟨t', ht', same'⟩ := forall₂_left kept.agree hs'
    have one := firstMax_scan_front kept.contiguous (latest s hs rfl rfl)
    have two := firstMax_scan_front kept.service_contiguous
      (kept.latest_right same' ht' (latest s' hs' sameTenant.symm sameStart.symm))
    have parity := governed.parity s.tenantId s.startsOn (.front s) (.front t')
    rw [getEntitlement_eq] at parity
    unfold fnEntitlement at parity
    rw [one, two, Option.bind_some, Option.bind_some, entitlementOf_same _ same'] at parity
    obtain ⟨e, he, code, status⟩ := entitlementOf_stored hs s.startsOn
    obtain ⟨e', he', code', status'⟩ := entitlementOf_stored hs' s.startsOn
    rw [he, he'] at parity
    have equal : e' = e := Option.some.inj parity
    subst equal
    refine ⟨?_, status.symm.trans status'⟩
    obtain ⟨p, hp⟩ := Option.isSome_iff_exists.mp (b.legacy.references s hs).2
    obtain ⟨p', hp'⟩ := Option.isSome_iff_exists.mp (b.legacy.references s' hs').2
    rw [hp] at code
    rw [hp'] at code'
    exact c.plan?_code hp hp' (Option.some.inj (code.symm.trans code'))
  · intro alike
    constructor
    · intro tenant on scan scan'
      rw [getEntitlement_eq]
      unfold fnEntitlement
      cases hs : firstMax Subscription.startsOn
          ((scan.order b.legacy.rows).filter (Subscription.inForce tenant on)) with
      | none =>
        have unserved := firstMax_scan_none kept.contiguous scan hs
        cases ht : firstMax Subscription.startsOn
            ((scan'.order b.service.rows).filter (Subscription.inForce tenant on)) with
        | none => rfl
        | some t =>
          obtain ⟨s, _, latest⟩ := kept.latest_left (firstMax_scan_latest kept.service_contiguous scan' ht)
          exact absurd latest (unserved s)
      | some s =>
        have latest := firstMax_scan_latest kept.contiguous scan hs
        cases ht : firstMax Subscription.startsOn
            ((scan'.order b.service.rows).filter (Subscription.inForce tenant on)) with
        | none =>
          obtain ⟨t, mem, same⟩ := forall₂_left kept.agree latest.mem
          exact absurd (kept.latest_right same mem latest) (firstMax_scan_none kept.service_contiguous scan' ht t)
        | some t =>
          obtain ⟨s', same, latest'⟩ := kept.latest_left (firstMax_scan_latest kept.service_contiguous scan' ht)
          have start := latest'.same_start latest
          obtain ⟨plan, status⟩ := alike s' latest'.mem s latest.mem (latest'.tenantId.trans latest.tenantId.symm) start
          rw [Option.bind_some, Option.bind_some, entitlementOf_same _ same]
          simp [entitlementOf, latest'.tenantId, latest.tenantId, plan, status, start]
    · intro tenant on scan g hg
      have decides := governing_latest hg
      unfold fnEntitlement
      cases hs : firstMax Subscription.startsOn
          ((scan.order b.legacy.rows).filter (Subscription.inForce tenant on)) with
      | none => exact absurd decides (firstMax_scan_none kept.contiguous scan hs g)
      | some s =>
        have latest := firstMax_scan_latest kept.contiguous scan hs
        obtain ⟨plan, _⟩ := alike s latest.mem g decides.mem (latest.tenantId.trans decides.tenantId.symm)
          (latest.same_start decides)
        obtain ⟨e, he, code, _⟩ := entitlementOf_stored latest.mem on
        rw [Option.bind_some, he, ← plan]
        exact code

end OtterWorks.Billing
