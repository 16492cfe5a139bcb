import OtterWorks.Billing.Entitlements

namespace OtterWorks.Billing

variable {c : Catalog} {ids : ChangeIds}

section Step

variable {b b' : Billings c} {ch : PlanChange}

/-- What an accepted change makes of the legacy rows. -/
theorem accepted_legacy (h : ch.Accepted ids b b') : ∃ closed s,
    List.Forall₂ (Changed ch.tenant ch.effectiveOn) b.legacy.rows closed ∧ b'.legacy.rows = closed ++ [s] ∧
      Opened (ids.md5Id ch.tenant ch.plan ch.effectiveOn) ch.tenant ch.plan ch.effectiveOn s := spChangePlan_ok h.1

theorem agree_changed {tenant : Uuid} {on : Int} {rows rows' old old' : List Subscription}
    (agree : List.Forall₂ SameButId old old') (h : List.Forall₂ (Changed tenant on) old rows)
    (h' : List.Forall₂ (Changed tenant on) old' rows') : List.Forall₂ SameButId rows rows' := by
  induction agree generalizing rows rows' with
  | nil =>
    cases h
    cases h'
    exact .nil
  | cons same _ ih =>
    cases h with
    | cons first rest =>
      cases h' with
      | cons first' rest' => exact .cons (same.changed first first') (ih rest rest')

theorem Opened.same {id id' tenant plan : Uuid} {on : Int} {s t : Subscription} (hs : Opened id tenant plan on s)
    (ht : Opened id' tenant plan on t) : SameButId s t :=
  ⟨ht.tenantId.trans hs.tenantId.symm, ht.planId.trans hs.planId.symm, ht.startsOn.trans hs.startsOn.symm,
    ht.endsOn.trans hs.endsOn.symm, ht.status.trans hs.status.symm⟩

/-- An active row stays active, whatever change follows. -/
theorem Changed.active {tenant : Uuid} {on : Int} {s s' : Subscription} (h : Changed tenant on s s')
    (active : s.status = .active) : s'.status = .active := by
  rw [h.status]
  simp [Subscription.nextStatus, active]

theorem Changed.same_end {tenant : Uuid} {on : Int} {s t s' t' : Subscription} (hs : Changed tenant on s s')
    (ht : Changed tenant on t t') (sameTenant : s.tenantId = t.tenantId) (sameStart : s.startsOn = t.startsOn)
    (sameEnd : s.endsOn = t.endsOn) : s'.endsOn = t'.endsOn := by
  rw [hs.endsOn, ht.endsOn]
  simp [Subscription.precedes, sameTenant, sameStart, sameEnd]

theorem Changed.same_status {tenant : Uuid} {on : Int} {s t s' t' : Subscription} (hs : Changed tenant on s s')
    (ht : Changed tenant on t t') (sameTenant : s.tenantId = t.tenantId) (sameStart : s.startsOn = t.startsOn)
    (level : s.endsOn = t.endsOn ∨ s.status = .active ∨ t.status = .active) (same : s.status = t.status) :
    s'.status = t'.status := by
  rcases level with sameEnd | active | active
  · rw [hs.status, ht.status]
    simp [Subscription.precedes, Subscription.nextStatus, sameTenant, sameStart, sameEnd, same]
  · rw [hs.active active, ht.active (same.symm.trans active)]
  · rw [hs.active (same.trans active), ht.active active]

theorem kept_accepted (kept : Kept b) (h : ch.Accepted ids b b') : Kept b' := by
  obtain ⟨closed, s, changed, rows, opened⟩ := accepted_legacy h
  obtain ⟨closed', s', changed', rows', opened'⟩ := changePlan_ok h.2
  constructor
  · rw [rows, rows']
    exact List.rel_append (agree_changed kept.agree changed changed') (.cons (opened.same opened') .nil)
  · rw [rows]
    intro x hx e he
    rcases List.mem_append.mp hx with hx | hx
    · obtain ⟨y, hy, hxy⟩ := forall₂_right changed hx
      rw [hxy.endsOn] at he
      by_cases before : y.precedes ch.tenant ch.effectiveOn = true
      · -- the change closed it the day before its own row starts
        rw [if_pos before] at he
        have last : ch.effectiveOn - 1 = e := Option.some.inj he
        refine ⟨s, by simp, ?_, ?_⟩
        · simp only [Subscription.precedes, decide_eq_true_eq] at before
          rw [opened.tenantId, hxy.tenantId, before.1]
        · rw [opened.startsOn]
          omega
      · rw [if_neg before] at he
        obtain ⟨z, hz, tenantId, startsOn⟩ := kept.contiguous y hy e he
        obtain ⟨z', hz', hzz⟩ := forall₂_left changed hz
        exact ⟨z', List.mem_append_left _ hz', by rw [hzz.tenantId, tenantId, hxy.tenantId],
          by rw [hzz.startsOn, startsOn]⟩
    · have here : x = s := by simpa using hx
      rw [here, opened.endsOn] at he
      cases he
  · rw [rows]
    intro x hx y hy sameTenant sameStart
    rcases List.mem_append.mp hx with hx | hx
    · rcases List.mem_append.mp hy with hy | hy
      · obtain ⟨x₀, hx₀, hxx⟩ := forall₂_right changed hx
        obtain ⟨y₀, hy₀, hyy⟩ := forall₂_right changed hy
        rw [hxx.tenantId, hyy.tenantId] at sameTenant
        rw [hxx.startsOn, hyy.startsOn] at sameStart
        rcases kept.level x₀ hx₀ y₀ hy₀ sameTenant sameStart with sameEnd | active | active
        · exact Or.inl (hxx.same_end hyy sameTenant sameStart sameEnd)
        · exact Or.inr (Or.inl (hxx.active active))
        · exact Or.inr (Or.inr (hyy.active active))
      · have here : y = s := by simpa using hy
        exact Or.inr (Or.inr (by rw [here, opened.status]))
    · have here : x = s := by simpa using hx
      exact Or.inr (Or.inl (by rw [here, opened.status]))

/-- Rows stay alike exactly if the new row ties with none that differs from it. -/
theorem alike_accepted_iff (kept : Kept b) (h : ch.Accepted ids b b') (alike : Alike b) : Alike b' ↔ Untied b ch := by
  obtain ⟨closed, s, changed, rows, opened⟩ := accepted_legacy h
  constructor
  · intro alike' x hx tenantId startsOn
    obtain ⟨x', hx', hxx⟩ := forall₂_left changed hx
    have inside : x' ∈ b'.legacy.rows := by rw [rows]; exact List.mem_append_left _ hx'
    have new : s ∈ b'.legacy.rows := by rw [rows]; simp
    obtain ⟨plan, status⟩ := alike' x' inside s new (by rw [hxx.tenantId, tenantId, opened.tenantId])
      (by rw [hxx.startsOn, startsOn, opened.startsOn])
    -- the change does not close a row that starts with it
    have stays : x.precedes ch.tenant ch.effectiveOn = false := by
      unfold Subscription.precedes
      rw [decide_eq_false_iff_not]
      omega
    rw [hxx.planId, opened.planId] at plan
    rw [hxx.status, stays, if_neg (by simp), opened.status] at status
    exact ⟨plan, status⟩
  · intro untied x hx y hy sameTenant sameStart
    have withNew : ∀ z ∈ closed, z.tenantId = s.tenantId → z.startsOn = s.startsOn →
        z.planId = s.planId ∧ z.status = s.status := by
      intro z hz tenantId startsOn
      obtain ⟨z₀, hz₀, hzz⟩ := forall₂_right changed hz
      rw [hzz.tenantId, opened.tenantId] at tenantId
      rw [hzz.startsOn, opened.startsOn] at startsOn
      obtain ⟨plan, active⟩ := untied z₀ hz₀ tenantId startsOn
      rw [hzz.planId, plan, opened.planId, hzz.active active, opened.status]
      exact ⟨rfl, rfl⟩
    rw [rows] at hx hy
    rcases List.mem_append.mp hx with hx | hx
    · rcases List.mem_append.mp hy with hy | hy
      · obtain ⟨x₀, hx₀, hxx⟩ := forall₂_right changed hx
        obtain ⟨y₀, hy₀, hyy⟩ := forall₂_right changed hy
        rw [hxx.tenantId, hyy.tenantId] at sameTenant
        rw [hxx.startsOn, hyy.startsOn] at sameStart
        obtain ⟨plan, status⟩ := alike x₀ hx₀ y₀ hy₀ sameTenant sameStart
        exact ⟨by rw [hxx.planId, hyy.planId, plan], hxx.same_status hyy sameTenant sameStart
          (kept.level x₀ hx₀ y₀ hy₀ sameTenant sameStart) status⟩
      · have here : y = s := by simpa using hy
        rw [here] at sameTenant sameStart ⊢
        exact withNew x hx sameTenant sameStart
    · have here : x = s := by simpa using hx
      rw [here] at sameTenant sameStart ⊢
      rcases List.mem_append.mp hy with hy | hy
      · obtain ⟨plan, status⟩ := withNew y hy sameTenant.symm sameStart.symm
        exact ⟨plan.symm, status.symm⟩
      · have there : y = s := by simpa using hy
        rw [there]
        exact ⟨rfl, rfl⟩

end Step

/-- A change that is accepted ties with no other row of its tenant. -/
def Settles (ids : ChangeIds) (b : Billings c) (ch : PlanChange) : Prop :=
  (∃ b', ch.Accepted ids b b') → Untied b ch

theorem governed_after_iff (b : Billings c) (ch : PlanChange) (h : Kept b ∧ Governed b) :
    (Kept (b.after ids ch) ∧ Governed (b.after ids ch)) ↔ Settles ids b ch := by
  obtain ⟨kept, governed⟩ := h
  rcases after_cases ids b ch with accepted | ⟨same, refused⟩
  · have kept' := kept_accepted kept accepted
    have step := alike_accepted_iff kept accepted ((governed_iff kept).mp governed)
    constructor
    · intro h _
      exact step.mp ((governed_iff kept').mp h.2)
    · intro settles
      exact ⟨kept', (governed_iff kept').mpr (step.mpr (settles ⟨_, accepted⟩))⟩
  · rw [same]
    exact ⟨fun _ accepted => absurd accepted refused, fun _ => ⟨kept, governed⟩⟩

/-- The rows both databases start from; none is closed yet. -/
structure Opening (c : Catalog) extends Subscriptions c where
  isOpen : ∀ s ∈ rows, s.endsOn = none

def Opening.start (o : Opening c) : Billings c := ⟨o.toSubscriptions, o.toSubscriptions⟩

theorem Opening.kept (o : Opening c) : Kept o.start := by
  constructor
  · exact List.forall₂_same.mpr fun s _ => ⟨rfl, rfl, rfl, rfl, rfl⟩
  · intro s hs e he
    rw [o.isOpen s hs] at he
    cases he
  · intro s hs s' hs' _ _
    exact Or.inl ((o.isOpen s hs).trans (o.isOpen s' hs').symm)

theorem kept_after {b : Billings c} (kept : Kept b) (ch : PlanChange) : Kept (b.after ids ch) := by
  rcases after_cases ids b ch with accepted | ⟨same, _⟩
  · exact kept_accepted kept accepted
  · rw [same]
    exact kept

theorem kept_run {b : Billings c} (kept : Kept b) (changes : List PlanChange) :
    Kept (changes.foldl (Billings.after ids) b) := by
  induction changes generalizing b with
  | nil => exact kept
  | cons ch changes ih => exact ih (kept_after kept ch)

/-- Through a sequence of plan changes the last one accepted decides the entitlement in both services exactly if
no two of a tenant's rows that differ in plan or status start on one day. -/
theorem last_change_decides_iff (o : Opening c) (changes : List PlanChange) :
    (∀ n, Governed ((changes.take n).foldl (Billings.after ids) o.start)) ↔
      Alike o.start ∧ ∀ n ch, changes[n]? = some ch →
        Settles ids ((changes.take n).foldl (Billings.after ids) o.start) ch := by
  have runs := @foldl_always_iff _ _ (Billings.after ids) (fun b => Kept b ∧ Governed b) _
    (fun b ch => governed_after_iff b ch) o.start changes
  rw [← governed_iff o.kept]
  constructor
  · intro h
    obtain ⟨start, steps⟩ := runs.mp fun n => ⟨kept_run o.kept _, h n⟩
    exact ⟨start.2, steps⟩
  · intro h n
    exact (runs.mpr ⟨⟨o.kept, h.1⟩, h.2⟩ n).2

/-- One tenant and two plans. -/
def tiedCatalog : Catalog where
  tenants := [⟨1, false, .active⟩]
  plans := [⟨1, "STARTER", .starter, 50, 100, 1, true, by decide, unitRate_nonneg⟩,
    ⟨2, "GROWTH", .growth, 200, 1000, 1, true, by decide, unitRate_nonneg⟩]
  tenantIds := oneTenant_ids
  planIds := by decide
  planCodes := by decide

def tiedOpening : Opening tiedCatalog := ⟨⟨[], by decide, by simp⟩, by simp⟩

def tiedIds : ChangeIds := ⟨fun tenant plan _ => tenant * 100 + plan, fun tenant plan _ => tenant * 100 + plan⟩

def tiedChanges : List PlanChange := [⟨1, 1, 10, .asStored⟩, ⟨1, 2, 10, .asStored⟩]

/-- Of two changes accepted for one day the second decides, but both services go on answering the first. -/
theorem tied_changes_keep_first_plan :
    (tiedChanges.foldl (Billings.after tiedIds) tiedOpening.start).legacy.rows.map Subscription.planId = [1, 2] ∧
    (governing (tiedChanges.foldl (Billings.after tiedIds) tiedOpening.start).legacy.rows 1 10).map
      Subscription.planId = some 2 ∧
    (fnEntitlement .asStored (tiedChanges.foldl (Billings.after tiedIds) tiedOpening.start).legacy 1 10).map
      Entitlement.planCode = some "STARTER" ∧
    (getEntitlement .asStored (tiedChanges.foldl (Billings.after tiedIds) tiedOpening.start).service 1 10).map
      Entitlement.planCode = some "STARTER" := by
  decide +kernel

end OtterWorks.Billing
