import OtterWorks.Gateway.CircuitBreaker
import Mathlib.Data.List.Count

namespace OtterWorks.Gateway

/-- `Execute` would run the handler of a request that arrives at `now`. -/
def CircuitBreaker.Admits (cfg : CircuitBreakerConfig) (cb : CircuitBreaker) (now : Time) : Prop :=
  (cb.executeEnter cfg now).2 = none

instance (cfg : CircuitBreakerConfig) (cb : CircuitBreaker) (now : Time) :
    Decidable (cb.Admits cfg now) := inferInstanceAs (Decidable (_ = _))

namespace BreakerSystem

/-- A handler panic of a request that the present half-open period admitted. -/
def ProbePanics (s : BreakerSystem) : BreakerEvent → Prop
  | .finish r _ .panicked => s.breaker.state = .stateHalfOpen ∧ r.period = s.period
  | _ => False

/-- A failure that trips the breaker although its configuration allows no probe. -/
def TripsUnprobed (cfg : CircuitBreakerConfig) (s : BreakerSystem) : BreakerEvent → Prop
  | .finish _ calls .returned =>
    cfg.maxRequests = 0 ∧ s.breaker.state = .stateClosed ∧ recordedStatus calls ≥ 500 ∧
      CircuitBreaker.shouldTrip cfg s.breaker.counts.onFailure = true
  | _ => False

instance (s : BreakerSystem) (e : BreakerEvent) : Decidable (s.ProbePanics e) := by
  unfold ProbePanics
  split <;> infer_instance

instance (cfg : CircuitBreakerConfig) (s : BreakerSystem) (e : BreakerEvent) :
    Decidable (s.TripsUnprobed cfg e) := by
  unfold TripsUnprobed
  split <;> infer_instance

abbrev Settling (cfg : CircuitBreakerConfig) (s : BreakerSystem) (e : BreakerEvent) : Prop :=
  ¬ s.ProbePanics e ∧ ¬ s.TripsUnprobed cfg e

/-- Admitted requests of the present period that have not finished. -/
def probes (s : BreakerSystem) : Nat := s.running.countP fun r => r.period = s.period

/-- Every probe the half-open state has counted has succeeded or is still running. -/
structure ProbesSettle (cfg : CircuitBreakerConfig) (s : BreakerSystem) : Prop where
  past : ∀ r ∈ s.running, r.period ≤ s.period
  unprobed : cfg.maxRequests = 0 → s.breaker.state = .stateClosed
  room : s.breaker.state = .stateHalfOpen → s.breaker.counts.consecutiveSuccesses < cfg.maxRequests
  counted : s.breaker.state = .stateHalfOpen →
    s.breaker.counts.requests.toNat ≤ s.breaker.counts.consecutiveSuccesses.toNat + s.probes

theorem withBreaker_same_state {s : BreakerSystem} {cb : CircuitBreaker}
    (h : cb.state = s.breaker.state) : s.withBreaker cb = { s with breaker := cb } := by
  simp [withBreaker, h]

/-- A breaker that stays in its state keeps the invariant when its half-open counts do. -/
theorem probesSettle_keep {cfg : CircuitBreakerConfig} {s : BreakerSystem} {cb : CircuitBreaker}
    (past : ∀ r ∈ s.running, r.period ≤ s.period) (same : cb.state = s.breaker.state)
    (unprobed : cfg.maxRequests = 0 → s.breaker.state = .stateClosed)
    (room : cb.state = .stateHalfOpen → cb.counts.consecutiveSuccesses < cfg.maxRequests)
    (counted : cb.state = .stateHalfOpen →
      cb.counts.requests.toNat ≤ cb.counts.consecutiveSuccesses.toNat + s.probes) :
    (s.withBreaker cb).ProbesSettle cfg := by
  rw [withBreaker_same_state same]
  exact ⟨past, fun hz => same.trans (unprobed hz), room, counted⟩

/-- A change of state starts a period in which no request is running. -/
theorem probesSettle_change {cfg : CircuitBreakerConfig} {s : BreakerSystem} {cb : CircuitBreaker}
    (past : ∀ r ∈ s.running, r.period ≤ s.period) (changed : cb.state ≠ s.breaker.state)
    (unprobed : cfg.maxRequests = 0 → cb.state = .stateClosed)
    (fresh : cb.state = .stateHalfOpen → cb.counts = .reset) :
    (s.withBreaker cb).ProbesSettle cfg := by
  have before : ∀ r ∈ s.running, r.period < s.period + 1 := fun r hr => Nat.lt_succ_of_le (past r hr)
  refine ⟨?_, unprobed, ?_, ?_⟩
  · simp only [withBreaker, if_neg changed]
    exact fun r hr => Nat.le_of_lt (before r hr)
  · intro half
    have half : cb.state = .stateHalfOpen := half
    have positive : cfg.maxRequests ≠ 0 := fun hz => by simp [half] at unprobed; exact unprobed hz
    have hr : (s.withBreaker cb).breaker.counts = .reset := fresh half
    rw [hr]
    exact UInt32.pos_iff_ne_zero.mpr positive
  · intro half
    have hr : (s.withBreaker cb).breaker.counts = .reset := fresh half
    simp [hr, Counts.reset]

end BreakerSystem

namespace CircuitBreaker

/-- `currentState` starts a new generation, or lets an expired breaker probe. -/
theorem currentState_cases (cfg : CircuitBreakerConfig) (cb : CircuitBreaker) (now : Time) :
    ((cb.currentState cfg now).state = cb.state ∧
        (cb.state = .stateHalfOpen → cb.currentState cfg now = cb)) ∨
      (cb.state = .stateOpen ∧ (cb.currentState cfg now).state = .stateHalfOpen ∧
        (cb.currentState cfg now).counts = .reset) := by
  unfold currentState
  split
  next closed =>
    refine Or.inl ⟨?_, fun half => by simp [closed] at half⟩
    split
    · unfold toNewGeneration
      dsimp only
      split <;> rfl
    · rfl
  next opened =>
    split
    · exact Or.inr ⟨opened, rfl, rfl⟩
    · exact Or.inl ⟨rfl, fun half => by simp [opened] at half⟩
  next half => exact Or.inl ⟨rfl, fun _ => rfl⟩

theorem setState_state (cfg : CircuitBreakerConfig) (cb : CircuitBreaker) (state : CircuitState)
    (now : Time) : (cb.setState cfg state now).state = state := by
  cases state with
  | stateClosed =>
    unfold setState
    dsimp only
    split <;> rfl
  | stateOpen => rfl
  | stateHalfOpen => rfl

theorem onSuccess_cases (cfg : CircuitBreakerConfig) (cb : CircuitBreaker) (now : Time) :
    (cb.state = .stateHalfOpen ∧ (cb.onSuccess cfg now).state = .stateClosed) ∨
      (cb.onSuccess cfg now = { cb with counts := cb.counts.onSuccess } ∧
        (cb.state = .stateHalfOpen → cb.counts.onSuccess.consecutiveSuccesses < cfg.maxRequests)) := by
  unfold onSuccess
  dsimp only
  split
  next h => exact Or.inl ⟨h.1, setState_state ..⟩
  next h =>
    refine Or.inr ⟨rfl, fun half => ?_⟩
    have low := fun ge => h ⟨half, ge⟩
    exact UInt32.not_le.mp low

theorem onFailure_cases (cfg : CircuitBreakerConfig) (cb : CircuitBreaker) (now : Time) :
    ((cb.state = .stateHalfOpen ∨ cb.state = .stateClosed ∧ shouldTrip cfg cb.counts.onFailure = true) ∧
        (cb.onFailure cfg now).state = .stateOpen) ∨
      (cb.state ≠ .stateHalfOpen ∧ cb.onFailure cfg now = { cb with counts := cb.counts.onFailure }) := by
  unfold onFailure
  dsimp only
  split
  next closed =>
    split
    next trip => exact Or.inl ⟨Or.inr ⟨closed, trip⟩, rfl⟩
    next => exact Or.inr ⟨by simp [closed], rfl⟩
  next opened => exact Or.inr ⟨by simp [opened], rfl⟩
  next half => exact Or.inl ⟨Or.inl half, rfl⟩

end CircuitBreaker

namespace BreakerSystem

theorem ProbesSettle.observe {cfg : CircuitBreakerConfig} {s : BreakerSystem} (hs : s.ProbesSettle cfg) :
    (s.withBreaker (s.breaker.currentState cfg s.now)).ProbesSettle cfg := by
  rcases s.breaker.currentState_cases cfg s.now with ⟨same, kept⟩ | ⟨opened, half, fresh⟩
  · refine probesSettle_keep hs.past same hs.unprobed (fun half => ?_) (fun half => ?_)
    · rw [kept (same.symm.trans half)]
      exact hs.room (same.symm.trans half)
    · rw [kept (same.symm.trans half)]
      exact hs.counted (same.symm.trans half)
  · refine probesSettle_change hs.past (by simp [opened, half]) (fun hz => ?_) (fun _ => fresh)
    have closed := hs.unprobed hz
    simp [opened] at closed

/-- Admitting one more probe below the limit cannot overflow the request counter. -/
theorem ProbesSettle.admit {cfg : CircuitBreakerConfig} {s : BreakerSystem} {id : Nat}
    (hs : s.ProbesSettle cfg)
    (below : ¬ (s.breaker.state = .stateHalfOpen ∧ s.breaker.counts.requests ≥ cfg.maxRequests)) :
    ProbesSettle cfg { s with
      breaker := { s.breaker with
        counts := { s.breaker.counts with requests := s.breaker.counts.requests + 1 } }
      running := ⟨id, s.period⟩ :: s.running } := by
  refine ⟨?_, hs.unprobed, hs.room, fun half => ?_⟩
  · intro r hr
    rcases List.mem_cons.mp hr with rfl | hr
    · exact Nat.le_refl _
    · exact hs.past r hr
  · have limit : s.breaker.counts.requests < cfg.maxRequests :=
      UInt32.not_le.mp fun ge => below ⟨half, ge⟩
    have counted := hs.counted half
    have small : s.breaker.counts.requests.toNat + 1 < 2 ^ 32 := by
      have := UInt32.lt_iff_toNat_lt.mp limit
      have := cfg.maxRequests.toNat_lt
      omega
    have one : (s.breaker.counts.requests + 1).toNat = s.breaker.counts.requests.toNat + 1 := by
      rw [UInt32.toNat_add]
      exact Nat.mod_eq_of_lt small
    simp only [probes] at counted
    simp only [probes, one, List.countP_cons, decide_true, ite_true]
    omega

theorem ProbesSettle.start {cfg : CircuitBreakerConfig} {s t : BreakerSystem} {id : Nat}
    (hs : s.ProbesSettle cfg) (h : step cfg s (.start id) = some t) : t.ProbesSettle cfg := by
  have observed := hs.observe
  simp only [step, CircuitBreaker.executeEnter] at h
  split at h
  next cb _ refused =>
    split at refused
    next => simp only [Prod.mk.injEq] at refused; cases h; rw [← refused.1]; exact observed
    next =>
      split at refused
      next => simp only [Prod.mk.injEq] at refused; cases h; rw [← refused.1]; exact observed
      next => simp at refused
  next cb admitted =>
    split at admitted
    next => simp at admitted
    next =>
      split at admitted
      next => simp at admitted
      next below =>
        simp only [Prod.mk.injEq, and_true] at admitted
        cases h
        rw [← admitted]
        exact observed.admit below

/-- A finished request gives back at most one probe. -/
theorem probes_erase (s : BreakerSystem) (r : Admitted) (hr : r ∈ s.running) :
    s.probes = ({ s with running := s.running.erase r } : BreakerSystem).probes +
      if r.period = s.period then 1 else 0 := by
  simp only [probes, List.countP_erase, hr, true_and, decide_eq_true_eq]
  split
  next same =>
    have : 0 < s.running.countP fun r => decide (r.period = s.period) :=
      List.countP_pos_iff.mpr ⟨r, hr, by simp [same]⟩
    omega
  next => omega

theorem ProbesSettle.finish {cfg : CircuitBreakerConfig} {s t : BreakerSystem} {r : Admitted}
    {calls : List WriterCall} {ending : HandlerEnd} (hs : s.ProbesSettle cfg)
    (settling : s.Settling cfg (.finish r calls ending))
    (h : step cfg s (.finish r calls ending) = some t) : t.ProbesSettle cfg := by
  simp only [step] at h
  split at h
  next hr =>
    have erased := s.probes_erase r hr
    have past : ∀ q ∈ s.running.erase r, q.period ≤ s.period :=
      fun q hq => hs.past q (List.mem_of_mem_erase hq)
    cases ending with
    | panicked =>
      cases h
      refine ⟨past, hs.unprobed, hs.room, fun half => ?_⟩
      have other : r.period ≠ s.period := fun same => settling.1 ⟨half, same⟩
      have counted := hs.counted half
      simp only [if_neg other] at erased
      change s.breaker.counts.requests.toNat ≤ _
      simp only at counted erased ⊢
      omega
    | returned =>
      cases h
      unfold CircuitBreaker.executeLeave
      split
      next failed =>
        rcases s.breaker.onFailure_cases cfg s.now with ⟨cause, opened⟩ | ⟨other, kept⟩
        · refine probesSettle_change past ?_ (fun hz => ?_) (fun half => ?_)
          · rcases cause with half | ⟨closed, _⟩
            · simp [opened, half]
            · simp [opened, closed]
          · have closed := hs.unprobed hz
            rcases cause with half | ⟨_, trip⟩
            · simp [half] at closed
            · exact absurd ⟨hz, closed, failed, trip⟩ settling.2
          · simp [opened] at half
        · rw [kept]
          exact probesSettle_keep past rfl hs.unprobed (fun half => absurd half other)
            (fun half => absurd half other)
      next succeeded =>
        rcases s.breaker.onSuccess_cases cfg s.now with ⟨half, closed⟩ | ⟨kept, low⟩
        · exact probesSettle_change past (by simp [half, closed]) (fun _ => closed)
            (fun half => by simp [closed] at half)
        · rw [kept]
          refine probesSettle_keep past rfl hs.unprobed low (fun half => ?_)
          have counted := hs.counted half
          have room := UInt32.lt_iff_toNat_lt.mp (hs.room half)
          have more : s.breaker.counts.onSuccess.consecutiveSuccesses.toNat =
              s.breaker.counts.consecutiveSuccesses.toNat + 1 := by
            rw [Counts.onSuccess, UInt32.toNat_add]
            exact Nat.mod_eq_of_lt (by have := cfg.maxRequests.toNat_lt; simp; omega)
          change s.breaker.counts.requests.toNat ≤
            s.breaker.counts.onSuccess.consecutiveSuccesses.toNat + _
          rw [more]
          split at erased <;> omega
  next => simp at h

theorem ProbesSettle.step {cfg : CircuitBreakerConfig} (s : BreakerSystem) (e : BreakerEvent)
    (t : BreakerSystem) (hs : s.ProbesSettle cfg) (settling : s.Settling cfg e)
    (h : step cfg s e = some t) : t.ProbesSettle cfg := by
  cases e with
  | start id => exact hs.start h
  | finish r calls ending => exact hs.finish settling h
  | observe =>
    cases h
    exact hs.observe
  | tick d =>
    cases h
    exact ⟨hs.past, hs.unprobed, hs.room, hs.counted⟩

theorem initial_probesSettle (cfg : CircuitBreakerConfig) (name : String) (now : Time) :
    (initial name now).ProbesSettle cfg :=
  ⟨by simp [initial], fun _ => rfl, fun half => (nomatch half), fun half => (nomatch half)⟩

theorem ProbesSettle.idle_counts {cfg : CircuitBreakerConfig} {s : BreakerSystem}
    (hs : s.ProbesSettle cfg) (idle : s.running = []) (half : s.breaker.state = .stateHalfOpen) :
    s.breaker.counts.requests < cfg.maxRequests := by
  have room := UInt32.lt_iff_toNat_lt.mp (hs.room half)
  have counted := hs.counted half
  simp only [probes, idle, List.countP_nil] at counted
  exact UInt32.lt_iff_toNat_lt.mpr (by omega)

end BreakerSystem

/-- What an arriving request meets after the clock has passed the breaker's expiry. -/
theorem CircuitBreaker.admits_of_settled {cfg : CircuitBreakerConfig} {cb : CircuitBreaker} {now : Time}
    (later : cb.expiry < now) (probing : cb.state = .stateOpen → 0 < cfg.maxRequests)
    (room : cb.state = .stateHalfOpen → cb.counts.requests < cfg.maxRequests) : cb.Admits cfg now := by
  unfold Admits executeEnter
  rcases cb.currentState_cases cfg now with ⟨same, kept⟩ | ⟨opened, half, fresh⟩
  · have live : cb.state ≠ .stateOpen := by
      intro opened
      simp [currentState, opened, later, setState_state] at same
    have below : ¬ (cb.state = .stateHalfOpen ∧
        (cb.currentState cfg now).counts.requests ≥ cfg.maxRequests) := by
      rintro ⟨half, ge⟩
      rw [kept half] at ge
      exact UInt32.not_le.mpr (room half) ge
    simp [same, live, below]
  · have low : ¬ Counts.reset.requests ≥ cfg.maxRequests := UInt32.not_le.mpr (probing opened)
    simp [half, fresh, low]

/-- One probe at a time, ten nanoseconds open, tripped by any failure ratio. -/
def oneProbe : CircuitBreakerConfig := ⟨1, 0, 10, fun _ _ => true⟩

/-- Five upstream errors trip the breaker, and its only probe is let in after the timeout. -/
def tripAndProbe : List BreakerEvent :=
  (List.range 5).flatMap (fun id =>
      [.start id, .finish ⟨id, 0⟩ [.writeHeader 502, .write] .returned]) ++ [.tick 11, .start 5]

/-- A run in which no probe panics during its own half-open period, and no breaker without probes
trips, never wedges: once nothing is running, a request is admitted after a finite wait. -/
theorem breaker_admits_after_wait {cfg : CircuitBreakerConfig} {name : String} {now : Time}
    {s : BreakerSystem}
    (reach : Reaches (BreakerSystem.step cfg) (BreakerSystem.Settling cfg) (.initial name now) s)
    (idle : s.running = []) : ∃ wait : Nat, s.breaker.Admits cfg (s.now + wait) := by
  have hs : s.ProbesSettle cfg :=
    reach.preserves BreakerSystem.ProbesSettle.step (BreakerSystem.initial_probesSettle cfg name now)
  refine ⟨(s.breaker.expiry - s.now + 1).toNat, CircuitBreaker.admits_of_settled ?_ (fun opened => ?_)
    (hs.idle_counts idle)⟩
  · have wait_passes (expiry now : Int) : expiry < now + (expiry - now + 1).toNat := by omega
    exact wait_passes _ _
  · apply UInt32.pos_iff_ne_zero.mpr
    intro hz
    have closed := hs.unprobed hz
    simp [opened] at closed

/-- A probe that fails in the ordinary way opens the breaker again, and it probes once more. -/
theorem breaker_admits_after_failed_probe :
    ∃ wait : Nat, CircuitBreaker.Admits oneProbe ⟨"/api/v1/files", .stateOpen, .reset, 1021⟩ (1011 + wait) := by
  have run : runEvents (BreakerSystem.step oneProbe) (BreakerSystem.Settling oneProbe)
      (.initial "/api/v1/files" 1000)
      (tripAndProbe ++ [.finish ⟨5, 2⟩ [.writeHeader 503, .write] .returned]) =
      some ⟨⟨"/api/v1/files", .stateOpen, .reset, 1021⟩, 1011, 3, []⟩ := by decide +kernel
  exact breaker_admits_after_wait (Reaches.of_runEvents run) rfl

/-- The law the breaker's two error texts promise: a refusal is for a while only. -/
def NoWedge (cfg : CircuitBreakerConfig) : Prop :=
  ∀ (name : String) (now : Time) (s : BreakerSystem),
    Reaches (BreakerSystem.step cfg) (fun _ _ => True) (.initial name now) s →
      s.running = [] → ∃ wait : Nat, s.breaker.Admits cfg (s.now + wait)

/-- A probe whose handler panicked keeps its place, and the half-open state never expires. -/
theorem leaked_probe_refuses {cfg : CircuitBreakerConfig} {cb : CircuitBreaker}
    (half : cb.state = .stateHalfOpen) (full : cfg.maxRequests ≤ cb.counts.requests) (now : Time) :
    ¬ cb.Admits cfg now := by
  simp [CircuitBreaker.Admits, CircuitBreaker.executeEnter, CircuitBreaker.currentState, half, full]

/-- The probe is aborted while its response is being copied. -/
theorem abortedProbe_wedges : ¬ NoWedge oneProbe := by
  intro law
  have run : runEvents (BreakerSystem.step oneProbe) (fun _ _ => True)
      (.initial "/api/v1/files" 1000)
      (tripAndProbe ++ [.finish ⟨5, 2⟩ [.writeHeader 200, .write] .panicked]) =
      some ⟨⟨"/api/v1/files", .stateHalfOpen, ⟨1, 0, 0, 0, 0⟩, 0⟩, 1011, 2, []⟩ := by decide +kernel
  obtain ⟨wait, admitted⟩ := law _ _ _ (Reaches.of_runEvents run) rfl
  exact leaked_probe_refuses rfl (by decide) _ admitted

end OtterWorks.Gateway
