import OtterWorks.Lib.Transition
import OtterWorks.Tenants.Control

namespace OtterWorks.Tenants

/-- A scale-down, with what had happened since a scan last started the idle clock. -/
structure Suspension where
  startedAt : Option Nat
  time : Nat
  served : Bool
  woken : Bool
  deriving DecidableEq, Repr

/-- A tenant in the control table, its Deployments that run, and the requests that the ingress controller has counted
for it. Not stored anywhere: when a scan last started the idle clock, whether it was served a request or woken since,
and whether the controller has restarted since it was last recorded. -/
structure IdleTenant where
  item : TenantItem
  running : Nat
  chaos : Bool
  counter : Nat
  now : Nat
  startedAt : Option Nat
  served : Bool
  woken : Bool
  restarted : Bool
  suspensions : List Suspension
  deriving DecidableEq, Repr

/-- What fails in a scan: the scrape, a record of activity, of a reset, of the run state or of the sleep, or the
scale-down. -/
structure ScanFaults where
  metrics : Bool
  activity : Bool
  reset : Bool
  running : Bool
  asleep : Bool
  scale : Bool
  deriving DecidableEq, Repr

namespace IdleTenant

def recordRunning (fails : Bool) (running : Nat) (s : IdleTenant) : IdleTenant :=
  if fails then s else { s with item := { s.item with wasRunning := some running } }

/-- `record_activity` with the present time: the clock starts. -/
def startClock (fails : Bool) (s : IdleTenant) : IdleTenant :=
  if fails then s
  else { s with
    item := { s.item with reqCount := some s.counter, idleSince := some s.now }
    startedAt := some s.now
    served := false
    woken := false
    restarted := false }

/-- `record_activity` with the time that is there: only the counter is taken over. -/
def keepClock (fails : Bool) (since : Nat) (s : IdleTenant) : IdleTenant :=
  if fails then s
  else { s with
    item := { s.item with reqCount := some s.counter, idleSince := some since }
    restarted := false }

/-- `suspend_tenant`. -/
def suspend (s : IdleTenant) : IdleTenant :=
  { s with running := 0, suspensions := s.suspensions ++ [⟨s.startedAt, s.now, s.served, s.woken⟩] }

/-- The clock has run since `since`: suspend, unless it is too early or a scenario runs. -/
def decideIdle (idleAfter : Nat) (f : ScanFaults) (since : Nat) (s : IdleTenant) : IdleTenant :=
  if s.now - since < idleAfter then s
  else if s.chaos then s
  else if f.scale then s
  else (s.suspend.startClock f.activity).recordRunning f.asleep 0

/-- What `suspend_idle_tenants` does at a tenant that is up and is not known to have woken. -/
def observe (idleAfter : Nat) (f : ScanFaults) (s : IdleTenant) : IdleTenant :=
  match s.item.reqCount, s.item.idleSince with
  | some prev, some since =>
    if prev < s.counter then s.startClock f.activity
    else if s.counter < prev then
      -- the controller restarted; what it has served since is traffic
      if 0 < s.counter then s.startClock f.activity
      else (s.keepClock f.reset since).decideIdle idleAfter f since
    else s.decideIdle idleAfter f since
  | _, _ => s.startClock f.activity

/-- `suspend_idle_tenants` at one tenant. -/
def scan (idleAfter : Nat) (f : ScanFaults) (s : IdleTenant) : IdleTenant :=
  if f.metrics then s
  else if s.item.isPersistent then s
  else if s.running = 0 then
    if s.item.wasRunning = some 0 then s else s.recordRunning f.asleep 0
  else if s.item.wasRunning = some 0 then (s.startClock f.activity).recordRunning f.running 1
  else if s.item.wasRunning = some 1 then s.observe idleAfter f
  else (s.recordRunning f.running 1).observe idleAfter f

end IdleTenant

inductive IdleEvent
  | scan (f : ScanFaults)
  | request
  | scaleTo (running : Nat)
  | restart
  | chaos (on : Bool)
  | tick (seconds : Nat)
  deriving DecidableEq, Repr

/-- A wake is a tenant's scaling up from zero, whoever does it. -/
def IdleTenant.step (idleAfter : Nat) (s : IdleTenant) : IdleEvent → IdleTenant
  | .scan f => s.scan idleAfter f
  | .request => { s with counter := s.counter + 1, served := true }
  | .scaleTo running => { s with running := running, woken := s.woken || (s.running = 0 && running ≠ 0) }
  | .restart => { s with counter := 0, restarted := true }
  | .chaos on => { s with chaos := on }
  | .tick seconds => { s with now := s.now + seconds }

/-- A tenant that no scan has seen. -/
def IdleTenant.start (item : TenantItem) (running counter now : Nat) : IdleTenant :=
  ⟨{ item with reqCount := none, idleSince := none, wasRunning := none }, running, false, counter, now, none, false,
    false, false, []⟩

/-- The tenant was not in use: it was neither served nor woken since the clock started, and that is long enough ago. -/
def Suspension.Justified (idleAfter : Nat) (x : Suspension) : Prop :=
  x.served = false ∧ x.woken = false ∧ ∃ since ∈ x.startedAt, idleAfter ≤ x.time - since

instance (idleAfter : Nat) (x : Suspension) : Decidable (x.Justified idleAfter) :=
  inferInstanceAs (Decidable (_ ∧ _ ∧ ∃ since ∈ x.startedAt, _))

/-- What a scan can tell by: a tenant with a clock wakes only when it is recorded asleep, the controller restarts only
when it has served nothing since the clock started, a counter that has restarted is not back at the recorded number, and
the scan that sees a wake does not fail to start the clock and yet record the tenant as up. -/
def Tells (s : IdleTenant) : IdleEvent → Prop
  | .scaleTo running =>
    s.running = 0 → running ≠ 0 → s.item.idleSince.isSome = true → s.item.wasRunning = some 0
  | .restart => s.item.reqCount.isSome = true → s.served = false
  | .scan f =>
    (s.restarted = true → s.counter ≠ 0 → s.item.reqCount ≠ some s.counter) ∧
      (s.item.wasRunning = some 0 → f.activity = true → f.running = true)
  | _ => True

instance (s : IdleTenant) (event : IdleEvent) : Decidable (Tells s event) :=
  match event with
  | .scaleTo _ => inferInstanceAs (Decidable (_ → _ → _ → _))
  | .restart => inferInstanceAs (Decidable (_ → _))
  | .scan _ => inferInstanceAs (Decidable ((_ → _ → _) ∧ (_ → _ → _)))
  | .request => isTrue trivial
  | .chaos _ => isTrue trivial
  | .tick _ => isTrue trivial

/-- The stored triple against what has happened since the clock started. -/
structure IdleInv (idleAfter : Nat) (s : IdleTenant) : Prop where
  both : s.item.reqCount.isSome = s.item.idleSince.isSome
  clock : ∀ since, s.item.idleSince = some since → s.startedAt = some since
  wake : s.woken = true → s.item.idleSince.isSome = true → s.item.wasRunning = some 0
  fresh : ∀ prev, s.item.reqCount = some prev → s.restarted = false →
    prev ≤ s.counter ∧ (s.served = true → prev < s.counter)
  anew : ∀ prev, s.item.reqCount = some prev → s.restarted = true → s.served = true → 0 < s.counter
  justified : ∀ x ∈ s.suspensions, x.Justified idleAfter

section

variable {idleAfter : Nat} {s : IdleTenant} {f : ScanFaults} {event : IdleEvent} {fails : Bool}

theorem IdleInv.startClock (h : IdleInv idleAfter s) (fails : Bool) : IdleInv idleAfter (s.startClock fails) := by
  unfold IdleTenant.startClock
  split
  next => exact h
  next =>
    refine ⟨rfl, ?_, ?_, ?_, ?_, h.justified⟩
    · exact fun since same => same
    · intro woken
      cases woken
    · intro prev same _
      cases Option.some.inj same
      refine ⟨Nat.le_refl _, ?_⟩
      intro served
      cases served
    · intro _ _ restarted
      cases restarted

/-- The run state is recorded where no wake depends on it. -/
theorem IdleInv.recordRunning (h : IdleInv idleAfter s) (fails : Bool) {running : Nat}
    (settled : running = 0 ∨ s.woken = false ∨ s.item.idleSince = none) :
    IdleInv idleAfter (s.recordRunning fails running) := by
  unfold IdleTenant.recordRunning
  split
  next => exact h
  next =>
    refine ⟨h.both, h.clock, ?_, h.fresh, h.anew, h.justified⟩
    intro woken there
    rcases settled with zero | asleep | absent
    · rw [zero]
    · change s.woken = true at woken
      rw [asleep] at woken
      cases woken
    · change s.item.idleSince.isSome = true at there
      rw [absent] at there
      cases there

/-- A counter at zero after a restart has hidden nothing. -/
theorem IdleInv.keepClock (h : IdleInv idleAfter s) (fails : Bool) {since : Nat} (there : s.item.idleSince = some since)
    (unserved : s.served = false) : IdleInv idleAfter (s.keepClock fails since) := by
  unfold IdleTenant.keepClock
  split
  next => exact h
  next =>
    refine ⟨rfl, ?_, ?_, ?_, ?_, h.justified⟩
    · intro t same
      cases Option.some.inj same
      exact h.clock since there
    · intro woken _
      exact h.wake woken (by rw [there]; rfl)
    · intro prev same _
      cases Option.some.inj same
      refine ⟨Nat.le_refl _, ?_⟩
      intro served
      change s.served = true at served
      rw [unserved] at served
      cases served
    · intro _ _ restarted
      cases restarted

theorem IdleInv.decideIdle (h : IdleInv idleAfter s) {since : Nat} (there : s.item.idleSince = some since)
    (unserved : s.served = false) (awake : s.item.wasRunning ≠ some 0) :
    IdleInv idleAfter (s.decideIdle idleAfter f since) := by
  have unwoken : s.woken = false := by
    cases woken : s.woken with
    | false => rfl
    | true => exact absurd (h.wake woken (by rw [there]; rfl)) awake
  unfold IdleTenant.decideIdle
  split
  next => exact h
  next long =>
    split
    next => exact h
    next =>
      split
      next => exact h
      next =>
        have suspended : IdleInv idleAfter s.suspend := by
          refine ⟨h.both, h.clock, h.wake, h.fresh, h.anew, ?_⟩
          intro x member
          rcases List.mem_append.mp member with old | new
          · exact h.justified x old
          · rw [List.mem_singleton.mp new]
            refine ⟨unserved, unwoken, since, h.clock since there, ?_⟩
            change idleAfter ≤ s.now - since
            omega
        exact (suspended.startClock f.activity).recordRunning f.asleep (Or.inl rfl)

theorem IdleInv.observe (h : IdleInv idleAfter s)
    (apart : s.restarted = true → s.counter ≠ 0 → s.item.reqCount ≠ some s.counter)
    (awake : s.item.wasRunning ≠ some 0) : IdleInv idleAfter (s.observe idleAfter f) := by
  unfold IdleTenant.observe
  split
  next prev since counted clocked =>
    have unserved : ¬ prev < s.counter → s.counter < prev ∧ s.counter = 0 ∨ s.counter = prev → s.served = false := by
      intro _ same
      cases served : s.served with
      | false => rfl
      | true =>
        cases restarted : s.restarted with
        | false =>
          have := h.fresh prev counted restarted
          have := this.2 served
          omega
        | true =>
          have moved := h.anew prev counted restarted served
          have differs := apart restarted (by omega)
          rw [counted] at differs
          have : prev ≠ s.counter := fun same => differs (congrArg some same)
          omega
    split
    next => exact h.startClock f.activity
    next notMore =>
      split
      next less =>
        split
        next => exact h.startClock f.activity
        next zero =>
          have zero : s.counter = 0 := by omega
          have quiet := unserved notMore (Or.inl ⟨less, zero⟩)
          have kept := h.keepClock f.reset clocked quiet
          apply kept.decideIdle
          · unfold IdleTenant.keepClock
            split
            next => exact clocked
            next => rfl
          · unfold IdleTenant.keepClock
            split
            next => exact quiet
            next => exact quiet
          · unfold IdleTenant.keepClock
            split
            next => exact awake
            next => exact awake
      next =>
        have same : s.counter = prev := by omega
        exact h.decideIdle clocked (unserved notMore (Or.inr same)) awake
  next => exact h.startClock f.activity

theorem IdleInv.scan (h : IdleInv idleAfter s) (tells : Tells s (.scan f)) :
    IdleInv idleAfter (s.scan idleAfter f) := by
  obtain ⟨apart, seen⟩ := tells
  unfold IdleTenant.scan
  split
  next => exact h
  next =>
    split
    next => exact h
    next =>
      split
      next =>
        split
        next => exact h
        next => exact h.recordRunning f.asleep (Or.inl rfl)
      next =>
        split
        next asleep =>
          cases lost : f.activity with
          | true =>
            -- the clock did not start, so the tenant must not be recorded as up
            unfold IdleTenant.recordRunning
            rw [seen asleep lost]
            exact h.startClock true
          | false => exact (h.startClock false).recordRunning f.running (Or.inr (Or.inl rfl))
        next awake =>
          split
          next => exact h.observe apart awake
          next =>
            have settled : s.woken = false ∨ s.item.idleSince = none := by
              cases woken : s.woken with
              | false => exact Or.inl rfl
              | true =>
                cases there : s.item.idleSince with
                | none => exact Or.inr rfl
                | some since => exact absurd (h.wake woken (by rw [there]; rfl)) awake
            apply (h.recordRunning f.running (Or.inr settled)).observe
            · unfold IdleTenant.recordRunning
              split
              next => exact apart
              next => exact apart
            · unfold IdleTenant.recordRunning
              split
              next => exact awake
              next => simp

theorem IdleInv.step (h : IdleInv idleAfter s) (tells : Tells s event) : IdleInv idleAfter (s.step idleAfter event) := by
  cases event with
  | scan f => exact h.scan tells
  | request =>
    refine ⟨h.both, h.clock, h.wake, ?_, ?_, h.justified⟩
    · intro prev same restarted
      have := (h.fresh prev same restarted).1
      exact ⟨Nat.le_succ_of_le this, fun _ => Nat.lt_succ_of_le this⟩
    · exact fun _ _ _ _ => Nat.succ_pos _
  | scaleTo running =>
    refine ⟨h.both, h.clock, ?_, h.fresh, h.anew, h.justified⟩
    intro woken there
    rcases Bool.or_eq_true _ _ |>.mp woken with old | new
    · exact h.wake old there
    · obtain ⟨zero, up⟩ := Bool.and_eq_true _ _ |>.mp new
      exact tells (of_decide_eq_true zero) (by simpa using up) there
  | restart =>
    refine ⟨h.both, h.clock, h.wake, ?_, ?_, h.justified⟩
    · intro _ _ restarted
      cases restarted
    · intro prev same _ served
      change s.item.reqCount = some prev at same
      have unserved := tells (by rw [same]; rfl)
      change s.served = true at served
      rw [unserved] at served
      cases served
  | chaos on => exact ⟨h.both, h.clock, h.wake, h.fresh, h.anew, h.justified⟩
  | tick seconds => exact ⟨h.both, h.clock, h.wake, h.fresh, h.anew, h.justified⟩

theorem IdleInv.start (item : TenantItem) (running counter now : Nat) :
    IdleInv idleAfter (.start item running counter now) := by
  refine ⟨rfl, ?_, ?_, ?_, ?_, ?_⟩
  · intro _ same
    cases same
  · intro woken
    cases woken
  · intro _ same
    cases same
  · intro _ same
    cases same
  · exact fun _ there => absurd there List.not_mem_nil

/-- No tenant in use is suspended in a run in which every scan can tell. -/
theorem suspensions_justified (idleAfter : Nat) (item : TenantItem) (running counter now : Nat) (events : List IdleEvent)
    (tells : ∀ n event, events[n]? = some event →
      Tells ((events.take n).foldl (IdleTenant.step idleAfter) (.start item running counter now)) event) (n : Nat) :
    ∀ x ∈ ((events.take n).foldl (IdleTenant.step idleAfter) (.start item running counter now)).suspensions,
      x.Justified idleAfter := by
  have inv : IdleInv idleAfter
      ((events.take n).foldl (IdleTenant.step idleAfter) (.start item running counter now)) := by
    refine @foldl_always_of _ _ _ (IdleInv idleAfter) Tells ?_ _ (IdleInv.start item running counter now) events tells n
    exact fun _ _ met h => h.step met
  exact inv.justified

end

def quiet : ScanFaults := ⟨false, false, false, false, false, false⟩

/-- The controller serves a request and restarts before the next scan. -/
def restartedController : List IdleEvent :=
  [.scan quiet, .tick 1800, .request, .restart, .tick 1800, .scan quiet]

theorem restart_hides_request : ∃ n, ∃ x ∈ ((restartedController.take n).foldl (IdleTenant.step 3600)
    (.start .bare 9 12 1700000000)).suspensions, ¬ x.Justified 3600 :=
  ⟨6, ⟨some 1700000000, 1700003600, true, false⟩, by decide, by decide⟩

/-- A tenant that is used, left, suspended, woken, used again and left again. The controller restarts twice, with nothing
served since the clock started, and a record of the activity and one of the run state fail. -/
def usedTenant : List IdleEvent :=
  [.scan quiet, .request, .tick 1800, .scan quiet, .tick 900, .restart, .tick 900, .scan quiet, .request, .request,
    .scan { quiet with activity := true }, .tick 600, .scan quiet, .tick 3600, .scan quiet, .tick 600, .scaleTo 9,
    .scan { quiet with running := true }, .request, .tick 600, .scan quiet, .tick 1800, .restart, .tick 1800, .scan quiet]

theorem used_tenant_suspended_twice :
    ((usedTenant.take 25).foldl (IdleTenant.step 3600) (.start .bare 9 0 1700000000)).suspensions.length = 2 ∧
    ∀ x ∈ ((usedTenant.take 25).foldl (IdleTenant.step 3600) (.start .bare 9 0 1700000000)).suspensions,
      x.Justified 3600 := by
  refine ⟨by decide, suspensions_justified 3600 .bare 9 0 1700000000 usedTenant ?_ 25⟩
  rw [forall_getElem?_iff]
  decide

end OtterWorks.Tenants
