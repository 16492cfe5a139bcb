import OtterWorks.Lib.Transition
import Mathlib.Data.List.Basic

namespace OtterWorks.Gateway

/-- `time.Time` in nanoseconds since the zero time, so `IsZero` is `= 0` and `Before` is `<`. -/
abbrev Time := Int

inductive CircuitState
  | stateClosed
  | stateOpen
  | stateHalfOpen
  deriving DecidableEq, Repr

/-- `ratioReached failures total` stands for `float64(failures) / float64(total) >= FailureRatio`. -/
structure CircuitBreakerConfig where
  maxRequests : UInt32
  interval : Int
  timeout : Int
  ratioReached : UInt32 → UInt32 → Bool

structure Counts where
  requests : UInt32
  totalSuccesses : UInt32
  totalFailures : UInt32
  consecutiveSuccesses : UInt32
  consecutiveFailures : UInt32
  deriving DecidableEq, Repr

def Counts.reset : Counts := ⟨0, 0, 0, 0, 0⟩

def Counts.onSuccess (c : Counts) : Counts :=
  { c with
    totalSuccesses := c.totalSuccesses + 1
    consecutiveSuccesses := c.consecutiveSuccesses + 1
    consecutiveFailures := 0 }

def Counts.onFailure (c : Counts) : Counts :=
  { c with
    totalFailures := c.totalFailures + 1
    consecutiveFailures := c.consecutiveFailures + 1
    consecutiveSuccesses := 0 }

structure CircuitBreaker where
  name : String
  state : CircuitState
  counts : Counts
  expiry : Time
  deriving DecidableEq, Repr

def newCircuitBreaker (name : String) : CircuitBreaker := ⟨name, .stateClosed, .reset, 0⟩

namespace CircuitBreaker

def setState (cfg : CircuitBreakerConfig) (cb : CircuitBreaker) (state : CircuitState) (now : Time) :
    CircuitBreaker :=
  let cb := { cb with state := state, counts := .reset }
  match state with
  | .stateClosed => if 0 < cfg.interval then { cb with expiry := now + cfg.interval } else cb
  | .stateOpen => { cb with expiry := now + cfg.timeout }
  | .stateHalfOpen => { cb with expiry := 0 }

def toNewGeneration (cfg : CircuitBreakerConfig) (cb : CircuitBreaker) (now : Time) : CircuitBreaker :=
  let cb := { cb with counts := .reset }
  if 0 < cfg.interval then { cb with expiry := now + cfg.interval } else { cb with expiry := 0 }

def currentState (cfg : CircuitBreakerConfig) (cb : CircuitBreaker) (now : Time) : CircuitBreaker :=
  match cb.state with
  | .stateClosed => if cb.expiry ≠ 0 ∧ cb.expiry < now then cb.toNewGeneration cfg now else cb
  | .stateOpen => if cb.expiry < now then cb.setState cfg .stateHalfOpen now else cb
  | .stateHalfOpen => cb

def shouldTrip (cfg : CircuitBreakerConfig) (counts : Counts) : Bool :=
  let total := counts.totalSuccesses + counts.totalFailures
  if total < 5 then false else cfg.ratioReached counts.totalFailures total

def onSuccess (cfg : CircuitBreakerConfig) (cb : CircuitBreaker) (now : Time) : CircuitBreaker :=
  let cb := { cb with counts := cb.counts.onSuccess }
  if cb.state = .stateHalfOpen ∧ cb.counts.consecutiveSuccesses ≥ cfg.maxRequests then
    cb.setState cfg .stateClosed now
  else cb

def onFailure (cfg : CircuitBreakerConfig) (cb : CircuitBreaker) (now : Time) : CircuitBreaker :=
  let cb := { cb with counts := cb.counts.onFailure }
  match cb.state with
  | .stateClosed => if shouldTrip cfg cb.counts then cb.setState cfg .stateOpen now else cb
  | .stateOpen => cb
  | .stateHalfOpen => cb.setState cfg .stateOpen now

/-- `Execute` up to the call of the handler: the breaker it leaves and the error that refuses. -/
def executeEnter (cfg : CircuitBreakerConfig) (cb : CircuitBreaker) (now : Time) :
    CircuitBreaker × Option String :=
  let cb := cb.currentState cfg now
  if cb.state = .stateOpen then (cb, some s!"circuit breaker {cb.name} is open")
  else if cb.state = .stateHalfOpen ∧ cb.counts.requests ≥ cfg.maxRequests then
    (cb, some s!"circuit breaker {cb.name}: too many requests in half-open state")
  else ({ cb with counts := { cb.counts with requests := cb.counts.requests + 1 } }, none)

/-- `Execute` after the handler returned; a handler that panics never gets here. -/
def executeLeave (cfg : CircuitBreakerConfig) (cb : CircuitBreaker) (now : Time) (statusCode : Nat) :
    CircuitBreaker :=
  if statusCode ≥ 500 then cb.onFailure cfg now else cb.onSuccess cfg now

end CircuitBreaker

/-- What a handler does to the `statusRecorder` it is given. -/
inductive WriterCall
  | writeHeader (code : Nat)
  | write
  deriving DecidableEq, Repr

structure StatusRecorder where
  statusCode : Nat
  written : Bool
  deriving DecidableEq, Repr

def StatusRecorder.call (r : StatusRecorder) : WriterCall → StatusRecorder
  | .writeHeader code => if !r.written then ⟨code, true⟩ else r
  | .write => if !r.written then { r with written := true } else r

def recordedStatus (calls : List WriterCall) : Nat :=
  (calls.foldl StatusRecorder.call ⟨200, false⟩).statusCode

inductive HandlerEnd
  | returned
  | panicked
  deriving DecidableEq, Repr

/-- An admitted request that is still in its handler, with the period it was admitted in. -/
structure Admitted where
  id : Nat
  period : Nat
  deriving DecidableEq, Repr

/-- One breaker, the clock, and the admitted requests. `period` counts the changes of the breaker's
state; the program does not store it. -/
structure BreakerSystem where
  breaker : CircuitBreaker
  now : Time
  period : Nat
  running : List Admitted
  deriving DecidableEq, Repr

inductive BreakerEvent
  | start (id : Nat)
  | finish (r : Admitted) (calls : List WriterCall) (ending : HandlerEnd)
  | observe
  | tick (d : Nat)
  deriving DecidableEq, Repr

namespace BreakerSystem

def initial (name : String) (now : Time) : BreakerSystem := ⟨newCircuitBreaker name, now, 0, []⟩

def withBreaker (s : BreakerSystem) (cb : CircuitBreaker) : BreakerSystem :=
  { s with breaker := cb, period := if cb.state = s.breaker.state then s.period else s.period + 1 }

def step (cfg : CircuitBreakerConfig) (s : BreakerSystem) : BreakerEvent → Option BreakerSystem
  | .start id =>
    match s.breaker.executeEnter cfg s.now with
    | (cb, some _) => some (s.withBreaker cb)
    | (cb, none) =>
      let t := s.withBreaker cb
      some { t with running := ⟨id, t.period⟩ :: t.running }
  | .finish r calls ending =>
    if r ∈ s.running then
      let t := { s with running := s.running.erase r }
      match ending with
      | .panicked => some t
      | .returned => some (t.withBreaker (t.breaker.executeLeave cfg t.now (recordedStatus calls)))
    else none
  -- `State` also runs `currentState`
  | .observe => some (s.withBreaker (s.breaker.currentState cfg s.now))
  | .tick d => some { s with now := s.now + d }

end BreakerSystem

end OtterWorks.Gateway
