import OtterWorks.Tenants.Lifetimes

namespace OtterWorks.Tenants

/-- The expiry is not below what an operator has set, and not further above what was set last than the floor of a
redeploy and one minute. -/
structure Tenancy.Kept (s : Tenancy) : Prop where
  notBelow : s.byOperator = true → s.granted ≤ s.expiry
  notAbove : s.expiry ≤ s.granted + 360

/-- The run whose end is next, with what it was given and when it started. -/
def Tenancy.ending (s : Tenancy) : LifetimeEvent → Option (Ttl × Nat × Bool)
  | .next i true =>
    (s.handlers[i]?).bind fun h =>
      match h.stage with
      | .run ttl started => some (ttl, started, h.overtaken)
      | _ => none
  | _ => none

/-- A run that ends well started soon enough for the lifetime it was given, and what was granted since its request
read the tenant lasts no longer than that. -/
def Fits (s : Tenancy) (event : LifetimeEvent) : Prop :=
  ∀ run ∈ s.ending event, run.2.1 + run.1.seconds ≤ s.granted + 360 ∧
    (s.byOperator = true → run.2.2 = true → s.granted ≤ run.2.1 + run.1.seconds)

instance (s : Tenancy) (event : LifetimeEvent) : Decidable (Fits s event) :=
  inferInstanceAs (Decidable (∀ run ∈ s.ending event, _ ∧ (_ → _ → _)))

/-- What a redeploy will write is no less than what it has read. -/
def LifetimeStage.lasts (now granted : Nat) : LifetimeStage → Prop
  | .activeRunnerJob expiresAt _ => granted ≤ expiresAt
  | .createRunnerJob ttl => granted ≤ now + ttl.seconds
  | .job ttl => granted ≤ now + ttl.seconds
  | .run ttl started => granted ≤ started + ttl.seconds
  | _ => True

/-- The writes that wait are of lifetimes that the routes let through. -/
def LifetimeStage.moderate : LifetimeStage → Prop
  | .extend ttlSeconds => ttlSeconds ≤ neverTtlSeconds
  | .persist _ ttlSeconds => ttlSeconds ≤ neverTtlSeconds
  | .pin _ ttlSeconds => ttlSeconds ≤ neverTtlSeconds
  | _ => True

structure LifetimeInv (s : Tenancy) : Prop where
  moderate : ∀ h ∈ s.handlers, h.stage.moderate
  grantedBy : s.byOperator = true → s.granted ≤ s.now + neverTtlSeconds
  lasts : s.byOperator = true → ∀ h ∈ s.handlers, h.overtaken = false → h.stage.lasts s.now s.granted

section

variable {s : Tenancy} {event : LifetimeEvent} {i : Nat} {succeeds : Bool} {h : LifetimeHandler} {stage : LifetimeStage}
  {granted now after : Nat}

theorem expiryEpoch_eq (ttl : Ttl) (now : Nat) : expiryEpoch ttl now = now + ttl.seconds := by
  cases ttl with
  | never => rfl
  | of num unit => rfl

theorem secondsToTtl_seconds (seconds : Nat) : seconds ≤ (secondsToTtl seconds).seconds := by
  unfold secondsToTtl Ttl.seconds TtlUnit.mult
  dsimp only
  omega

/-- What a redeploy passes on reaches at least as far as what it has read. -/
theorem redeployTtl_lasts {never : Bool} {expiresAt : Nat} (reaches : granted ≤ expiresAt)
    (decade : granted ≤ now + neverTtlSeconds) : granted ≤ now + (redeployTtl never expiresAt now).seconds := by
  unfold redeployTtl
  cases never with
  | true => exact decade
  | false =>
    have := secondsToTtl_seconds (max 300 (expiresAt - now))
    simp only [Bool.false_eq_true, if_false]
    omega

theorem LifetimeStage.lasts.later (lasts : stage.lasts now granted) (le : now ≤ after) : stage.lasts after granted := by
  cases stage with
  | createRunnerJob ttl =>
    unfold LifetimeStage.lasts at lasts ⊢
    omega
  | job ttl =>
    unfold LifetimeStage.lasts at lasts ⊢
    omega
  | _ => exact lasts

/-- What a request comes to: a write of a lifetime that its route lets through, or a redeploy with the expiry. -/
theorem LifetimeRequest.read_cases {r : LifetimeRequest} {item : TenantItem} (read : r.read item = some stage) :
    (∃ ttlSeconds ≤ neverTtlSeconds, stage = .extend ttlSeconds ∨ (∃ persistent, stage = .persist persistent ttlSeconds) ∨
      ∃ pinned, stage = .pin pinned ttlSeconds) ∨
    ∃ never, stage = .activeRunnerJob (item.expiresAt.getD 0) never := by
  unfold LifetimeRequest.read at read
  cases r with
  | extend ttlSeconds =>
    dsimp only at read
    split at read
    next => cases read
    next small =>
      split at read
      next => cases read
      next =>
        cases read
        exact Or.inl ⟨ttlSeconds, Nat.le_of_not_le small, Or.inl rfl⟩
  | persist persistent ttlSeconds =>
    dsimp only at read
    split at read
    next =>
      cases read
      exact Or.inl ⟨neverTtlSeconds, Nat.le_refl _, Or.inr (Or.inl ⟨true, rfl⟩)⟩
    next =>
      split at read
      next => cases read
      next small =>
        cases read
        exact Or.inl ⟨ttlSeconds, Nat.le_of_not_le small, Or.inr (Or.inl ⟨false, rfl⟩)⟩
  | pin pinned ttlSeconds =>
    dsimp only at read
    split at read
    next => cases read
    next =>
      split at read
      next =>
        cases read
        exact Or.inl ⟨neverTtlSeconds, Nat.le_refl _, Or.inr (Or.inr ⟨true, rfl⟩)⟩
      next =>
        split at read
        next => cases read
        next small =>
          cases read
          exact Or.inl ⟨ttlSeconds, Nat.le_of_not_le small, Or.inr (Or.inr ⟨false, rfl⟩)⟩
  | redeploy =>
    dsimp only at read
    split at read
    next => cases read
    next =>
      cases read
      exact Or.inr ⟨_, rfl⟩

theorem LifetimeRequest.read_moderate {r : LifetimeRequest} {item : TenantItem} (read : r.read item = some stage) :
    stage.moderate := by
  obtain ⟨ttlSeconds, small, rfl | ⟨_, rfl⟩ | ⟨_, rfl⟩⟩ | ⟨_, rfl⟩ := LifetimeRequest.read_cases read
  · exact small
  · exact small
  · exact small
  · trivial

/-- What is read is no less than what was granted, if the expiry is not. -/
theorem LifetimeRequest.read_lasts {r : LifetimeRequest} (read : r.read s.item = some stage)
    (reaches : s.granted ≤ s.expiry) : stage.lasts s.now s.granted := by
  obtain ⟨ttlSeconds, _, rfl | ⟨_, rfl⟩ | ⟨_, rfl⟩⟩ | ⟨_, rfl⟩ := LifetimeRequest.read_cases read
  · trivial
  · trivial
  · trivial
  · exact reaches

theorem LifetimeInv.start (input : CheckoutInput) (ttl : Ttl) (now : Nat) : LifetimeInv (.start input ttl now) := by
  refine ⟨?_, ?_, ?_⟩
  · intro h member
    rw [List.mem_singleton.mp member]
    trivial
  · intro set
    cases set
  · intro set
    cases set

/-- A handler takes its next stage and the lifetimes stay as they are. -/
theorem LifetimeInv.setStage (inv : LifetimeInv s) (moderate : stage.moderate)
    (lasts : s.byOperator = true → h.overtaken = false → stage.lasts s.now s.granted) :
    LifetimeInv (s.setStage i h stage) := by
  refine ⟨?_, inv.grantedBy, ?_⟩
  · intro g member
    rcases List.mem_or_eq_of_mem_set member with old | new
    · exact inv.moderate g old
    · rw [new]
      exact moderate
  · intro set g member ahead
    rcases List.mem_or_eq_of_mem_set member with old | new
    · exact inv.lasts set g old ahead
    · rw [new] at ahead ⊢
      exact lasts set ahead

/-- A grant overtakes every request. -/
theorem LifetimeInv.grant (inv : LifetimeInv s) (call : ControlCall) {ttlSeconds : Nat}
    (small : ttlSeconds ≤ neverTtlSeconds) : LifetimeInv (s.grant i call ttlSeconds) := by
  have late : ∀ g ∈ (s.grant i call ttlSeconds).handlers, g.overtaken = true ∧ g.stage.moderate := by
    intro g member
    rcases List.mem_or_eq_of_mem_set member with old | new
    · obtain ⟨before, there, rfl⟩ := List.mem_map.mp old
      exact ⟨rfl, inv.moderate before there⟩
    · rw [new]
      exact ⟨rfl, trivial⟩
  refine ⟨fun g member => (late g member).2, ?_, ?_⟩
  · intro _
    exact Nat.add_le_add_left small s.now
  · intro _ g member ahead
    rw [(late g member).1] at ahead
    cases ahead

theorem LifetimeInv.item (inv : LifetimeInv s) (item : TenantItem) : LifetimeInv { s with item := item } :=
  ⟨inv.moderate, inv.grantedBy, inv.lasts⟩

theorem LifetimeInv.step (inv : LifetimeInv s) (kept : s.Kept) (event : LifetimeEvent) : LifetimeInv (s.step event) := by
  cases event with
  | request r =>
    unfold Tenancy.step
    dsimp only
    split
    next => exact inv
    next stage read =>
      refine ⟨?_, inv.grantedBy, ?_⟩
      · intro g member
        rcases List.mem_append.mp member with old | new
        · exact inv.moderate g old
        · rw [List.mem_singleton.mp new]
          exact LifetimeRequest.read_moderate read
      · intro set g member ahead
        rcases List.mem_append.mp member with old | new
        · exact inv.lasts set g old ahead
        · rw [List.mem_singleton.mp new]
          exact LifetimeRequest.read_lasts read (kept.notBelow set)
  | tick seconds =>
    refine ⟨inv.moderate, ?_, ?_⟩
    · intro set
      have := inv.grantedBy set
      change s.granted ≤ s.now + seconds + neverTtlSeconds
      omega
    · exact fun set g member ahead => (inv.lasts set g member ahead).later (Nat.le_add_right ..)
  | next i succeeds =>
    unfold Tenancy.step
    dsimp only
    split
    next => exact inv
    next h there =>
      have member := List.mem_of_getElem? there
      have moderate := inv.moderate h member
      have lasts := fun set ahead => inv.lasts set h member ahead
      unfold Tenancy.next
      cases stage : h.stage with
      | extend ttlSeconds =>
        rw [stage] at moderate
        exact inv.grant _ moderate
      | persist persistent ttlSeconds =>
        rw [stage] at moderate
        exact inv.grant _ moderate
      | pin pinned ttlSeconds =>
        rw [stage] at moderate
        exact inv.grant _ moderate
      | activeRunnerJob expiresAt never =>
        rw [stage] at lasts
        dsimp only
        split
        next =>
          apply inv.setStage
          · trivial
          · exact fun _ _ => trivial
        next =>
          apply inv.setStage
          · trivial
          · exact fun set ahead => redeployTtl_lasts (lasts set ahead) (inv.grantedBy set)
      | createRunnerJob ttl =>
        rw [stage] at lasts
        apply inv.setStage
        · trivial
        · exact lasts
      | job ttl =>
        rw [stage] at lasts
        apply LifetimeInv.item
        apply inv.setStage
        · trivial
        · exact lasts
      | run ttl started =>
        apply LifetimeInv.item
        apply inv.setStage
        · trivial
        · exact fun _ _ => trivial
      | finished => exact inv

theorem Tenancy.grant_kept {call : ControlCall} {ttlSeconds : Nat}
    (sets : (s.item.after call).expiresAt = some (s.now + ttlSeconds)) : (s.grant i call ttlSeconds).Kept := by
  have expiry : (s.grant i call ttlSeconds).expiry = s.now + ttlSeconds := by
    unfold Tenancy.expiry Tenancy.grant
    dsimp only
    rw [sets]
    rfl
  have granted : (s.grant i call ttlSeconds).granted = s.now + ttlSeconds := rfl
  constructor
  · intro _
    omega
  · omega

/-- The lifetimes are judged by the expiry, by what was granted and by whom. -/
theorem Tenancy.Kept.same {t : Tenancy} (kept : s.Kept) (expiry : t.expiry = s.expiry) (granted : t.granted = s.granted)
    (operator : t.byOperator = s.byOperator) : t.Kept := by
  refine ⟨?_, ?_⟩
  · rw [operator, granted, expiry]
    exact kept.notBelow
  · rw [granted, expiry]
    exact kept.notAbove

/-- Only a run that ends well can break what is kept. -/
theorem Tenancy.kept_step (inv : LifetimeInv s) (kept : s.Kept) (event : LifetimeEvent) :
    (s.step event).Kept ↔ Fits s event := by
  have nothing : s.ending event = none → Fits s event := by
    intro ended run member
    rw [ended] at member
    cases member
  cases event with
  | request r =>
    refine iff_of_true ?_ (nothing rfl)
    unfold Tenancy.step
    dsimp only
    split
    next => exact kept
    next => exact kept.same rfl rfl rfl
  | tick seconds => exact iff_of_true (kept.same rfl rfl rfl) (nothing rfl)
  | next i succeeds =>
    cases there : s.handlers[i]? with
    | none =>
      refine iff_of_true ?_ (nothing ?_)
      · unfold Tenancy.step
        simp only [there]
        exact kept
      · unfold Tenancy.ending
        cases succeeds with
        | true => simp [there]
        | false => simp
    | some h =>
      have step : s.step (.next i succeeds) = s.next i succeeds h := by
        unfold Tenancy.step
        simp only [there]
      have ending : (∀ ttl started, h.stage ≠ .run ttl started) → Fits s (.next i succeeds) := by
        intro other
        apply nothing
        unfold Tenancy.ending
        cases succeeds with
        | false => rfl
        | true =>
          -- `other` rules the branch of a run out
          simp only [there, Option.bind_some]
      rw [step]
      unfold Tenancy.next
      cases stage : h.stage with
      | extend ttlSeconds =>
        exact iff_of_true (Tenancy.grant_kept rfl) (ending fun _ _ same => by rw [stage] at same; cases same)
      | persist persistent ttlSeconds =>
        exact iff_of_true (Tenancy.grant_kept rfl) (ending fun _ _ same => by rw [stage] at same; cases same)
      | pin pinned ttlSeconds =>
        exact iff_of_true (Tenancy.grant_kept rfl) (ending fun _ _ same => by rw [stage] at same; cases same)
      | activeRunnerJob expiresAt never =>
        refine iff_of_true ?_ (ending fun _ _ same => by rw [stage] at same; cases same)
        dsimp only
        split
        next => exact kept.same rfl rfl rfl
        next => exact kept.same rfl rfl rfl
      | createRunnerJob ttl =>
        refine iff_of_true ?_ (ending fun _ _ same => by rw [stage] at same; cases same)
        exact kept.same rfl rfl rfl
      | job ttl =>
        refine iff_of_true ?_ (ending fun _ _ same => by rw [stage] at same; cases same)
        exact kept.same rfl rfl rfl
      | finished =>
        refine iff_of_true kept (ending fun _ _ same => by rw [stage] at same; cases same)
      | run ttl started =>
        cases succeeds with
        | false =>
          exact iff_of_true (kept.same rfl rfl rfl) (nothing rfl)
        | true =>
          have reaches : s.byOperator = true → h.overtaken = false → s.granted ≤ started + ttl.seconds := by
            intro set ahead
            have := inv.lasts set h (List.mem_of_getElem? there) ahead
            rwa [stage] at this
          have fits : Fits s (.next i true) ↔ started + ttl.seconds ≤ s.granted + 360 ∧
              (s.byOperator = true → h.overtaken = true → s.granted ≤ started + ttl.seconds) := by
            unfold Fits Tenancy.ending
            simp [there, stage]
          rw [fits, ← expiryEpoch_eq]
          rw [← expiryEpoch_eq] at reaches
          constructor
          · intro after
            exact ⟨after.notAbove, fun set _ => after.notBelow set⟩
          · intro soon
            refine ⟨?_, soon.1⟩
            intro set
            change s.granted ≤ expiryEpoch ttl started
            cases late : h.overtaken with
            | true => exact soon.2 set late
            | false => exact reaches set late

/-- Lifetimes are kept throughout a run exactly if every deploy run in it fits. -/
theorem lifetimes_kept_iff (input : CheckoutInput) (ttl : Ttl) (now : Nat) (events : List LifetimeEvent) :
    (∀ n, ((events.take n).foldl Tenancy.step (.start input ttl now)).Kept) ↔
      ∀ n event, events[n]? = some event → Fits ((events.take n).foldl Tenancy.step (.start input ttl now)) event := by
  have run := @foldl_always_iff_with _ _ Tenancy.step Tenancy.Kept Fits LifetimeInv
    (fun s event aux kept => aux.step kept event) (fun s event aux kept => Tenancy.kept_step aux kept event) _
    (LifetimeInv.start input ttl now) events
  rw [run]
  apply and_iff_right
  constructor
  · intro set
    cases set
  · exact Nat.le_add_right ..

/-- A push in the last hour of a tenant, and an extension by eight hours while it deploys. -/
def extendedDeploy : List LifetimeEvent :=
  [.next 0 true, .next 0 true, .tick 10800, .request .redeploy, .next 1 true, .next 1 true, .next 1 true, .tick 60,
    .request (.extend 28800), .next 2 true, .tick 240, .next 1 true]

theorem extension_lost : ¬ ∀ n, ((extendedDeploy.take n).foldl Tenancy.step
    (.start ⟨"a01", "facilitator", "workshop-a01", .a, none, 0, "demo.otterworks.app", false⟩ (.of 4 .h)
      1700000000)).Kept := by
  intro always
  have after := (always 12).notBelow (by decide)
  revert after
  decide

end

end OtterWorks.Tenants
