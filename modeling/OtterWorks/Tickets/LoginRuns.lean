import OtterWorks.Lib.Transition
import Mathlib.Logic.Function.Basic
import Mathlib.Data.List.Count
import Mathlib.Algebra.Order.Ring.Int

namespace OtterWorks.Tickets

def windowMs : Nat := 15 * 60 * 1000

def maxAttempts : Nat := 5

def globalMaxAttempts : Nat := 20

def baseBackoffMs : Nat := 1000

structure Bucket where
  count : Nat
  windowStart : Nat
  lastAttempt : Nat
  deriving DecidableEq, Repr

structure RateResult where
  allowed : Bool
  retryAfterMs : Nat
  remaining : Nat
  deriving DecidableEq, Repr

/-- Both layers of the limiter, in the memory of one server. -/
structure Limiter where
  buckets : String → Option Bucket
  globalBucket : Bucket

def Limiter.start : Limiter := ⟨fun _ => none, ⟨0, 0, 0⟩⟩

/-- The window of a bucket is over. -/
def Bucket.expired (b : Bucket) (now : Nat) : Prop := windowMs < now - b.windowStart

instance (b : Bucket) (now : Nat) : Decidable (b.expired now) := inferInstanceAs (Decidable (_ < _))

def roll (b : Bucket) (now : Nat) : Bucket := if b.expired now then ⟨0, now, 0⟩ else b

/-- The layer of one address, on the bucket that `checkRateLimit` has found or made. -/
def checkBucket (b : Bucket) (now : Nat) : RateResult :=
  let backoff := baseBackoffMs * 2 ^ (b.count - 1)
  let waited := now - b.lastAttempt
  if maxAttempts ≤ b.count then ⟨false, b.windowStart + windowMs - now, 0⟩
  else if 0 < b.count ∧ waited < backoff then ⟨false, backoff - waited, maxAttempts - b.count⟩
  else ⟨true, 0, maxAttempts - b.count⟩

def checkRateLimit (l : Limiter) (ip : String) (now : Nat) : RateResult × Limiter :=
  let l := { l with globalBucket := roll l.globalBucket now }
  if globalMaxAttempts ≤ l.globalBucket.count then
    (⟨false, l.globalBucket.windowStart + windowMs - now, 0⟩, l)
  else
    let b := roll ((l.buckets ip).getD ⟨0, now, 0⟩) now
    (checkBucket b now, { l with buckets := Function.update l.buckets ip (some b) })

def Bucket.fail (b : Bucket) (now : Nat) : Bucket := ⟨b.count + 1, b.windowStart, now⟩

def recordFailure (l : Limiter) (ip : String) (now : Nat) : Limiter :=
  let b := (l.buckets ip).getD ⟨0, now, 0⟩
  let g := roll l.globalBucket now
  ⟨Function.update l.buckets ip (some (b.fail now)),
    (if g.count = 0 then { g with windowStart := now } else g).fail now⟩

def recordSuccess (l : Limiter) (ip : String) : Limiter :=
  ⟨Function.update l.buckets ip none, ⟨0, 0, 0⟩⟩

/-- The server with the requests that wait for their bodies, by address. `compared` lists when a wrong passcode was
compared. -/
structure LoginServer where
  secret : String
  passcode : String
  limiter : Limiter
  waiting : List String
  compared : List Nat
  now : Nat

/-- A request arrives, or the body of a waiting one is there: its passcode, or nothing. -/
inductive LoginEvent
  | arrive (ip : String) (now : Nat)
  | body (n : Nat) (submitted : String) (now : Nat)
  deriving DecidableEq, Repr

def LoginEvent.time : LoginEvent → Nat
  | .arrive _ now => now
  | .body _ _ now => now

/-- The passcode that comes with the event. -/
def LoginEvent.submitted : LoginEvent → Option String
  | .arrive .. => none
  | .body _ submitted _ => some submitted

inductive LoginReply
  | notConfigured
  | tooMany (retryAfterMs : Nat)
  | awaitsBody
  | invalid
  | ok
  deriving DecidableEq, Repr

namespace LoginServer

def arrive (s : LoginServer) (ip : String) (now : Nat) : LoginReply × LoginServer :=
  if s.secret = "" ∨ s.passcode = "" then (.notConfigured, s)
  else
    let (rate, limiter) := checkRateLimit s.limiter ip now
    if rate.allowed then (.awaitsBody, { s with limiter := limiter, waiting := s.waiting ++ [ip] })
    else (.tooMany rate.retryAfterMs, { s with limiter := limiter })

/-- Nothing is compared where nothing was submitted. -/
def judge (s : LoginServer) (ip submitted : String) (now : Nat) : LoginReply × LoginServer :=
  if submitted ≠ "" ∧ submitted = s.passcode then (.ok, { s with limiter := recordSuccess s.limiter ip })
  else
    (.invalid,
      { s with
        limiter := recordFailure s.limiter ip now
        compared := if submitted ≠ "" then s.compared ++ [now] else s.compared })

/-- What a request is answered; a body that no request waits for is not there. -/
def handle (s : LoginServer) : LoginEvent → Option (LoginReply × LoginServer)
  | .arrive ip now => some ({ s with now := now }.arrive ip now)
  | .body n submitted now =>
    (s.waiting[n]?).map fun ip =>
      { s with now := now, waiting := s.waiting.eraseIdx n }.judge ip submitted now

def step (s : LoginServer) (event : LoginEvent) : Option LoginServer := (s.handle event).map Prod.snd

def start (secret passcode : String) : LoginServer := ⟨secret, passcode, .start, [], [], 0⟩

end LoginServer

/-- The times in the period of a window's length that begins at `since`. -/
def inPeriod (since : Nat) (times : List Nat) : List Nat := times.filter fun t => since ≤ t ∧ t < since + windowMs

/-- No period of a window's length has more wrong passcodes compared than the global layer allows. -/
def WithinCeiling (times : List Nat) : Prop := ∀ since, (inPeriod since times).length ≤ globalMaxAttempts

/-- Time does not run back, and the passcode is not found. -/
def Guesses (s : LoginServer) (event : LoginEvent) : Prop :=
  s.now ≤ event.time ∧ ∀ submitted ∈ event.submitted, submitted ≠ s.passcode

/-- A window that this event ends has no attempt left in the last period. -/
def EndsOldWindow (s : LoginServer) (event : LoginEvent) : Prop :=
  s.limiter.globalBucket.expired event.time →
    s.limiter.globalBucket.count = 0 ∨ s.limiter.globalBucket.lastAttempt + windowMs ≤ event.time

/-- The ceiling would still let in the request whose wrong passcode is counted. -/
def CountsInTime (s : LoginServer) (event : LoginEvent) : Prop :=
  ∀ submitted ∈ event.submitted, submitted ≠ "" →
    (roll s.limiter.globalBucket event.time).count < globalMaxAttempts

instance (s : LoginServer) (event : LoginEvent) : Decidable (Guesses s event) := inferInstanceAs (Decidable (_ ∧ _))

instance (s : LoginServer) (event : LoginEvent) : Decidable (EndsOldWindow s event) :=
  inferInstanceAs (Decidable (_ → _))

instance (s : LoginServer) (event : LoginEvent) : Decidable (CountsInTime s event) :=
  inferInstanceAs (Decidable (∀ submitted ∈ event.submitted, _))

/-- What was compared falls into attempts that left the period when their window ended, and attempts that the window
has counted. -/
structure Counted (times : List Nat) (b : Bucket) (now : Nat) : Prop where
  split : ∃ before counted, times = before ++ counted ∧ counted.length ≤ b.count ∧
    (∀ t ∈ before, t + windowMs ≤ now) ∧
    (∀ t ∈ before, ∀ u ∈ counted, t + windowMs ≤ u) ∧
    ∀ t ∈ counted, t ≤ b.lastAttempt
  attempted : b.lastAttempt ≤ now
  within : WithinCeiling times

section

variable {s s' : LoginServer} {event : LoginEvent} {times before counted : List Nat} {b : Bucket} {now after : Nat}

theorem inPeriod_append (since : Nat) (a b : List Nat) : inPeriod since (a ++ b) = inPeriod since a ++ inPeriod since b :=
  List.filter_append ..

theorem inPeriod_length_le (since : Nat) (times : List Nat) : (inPeriod since times).length ≤ times.length :=
  List.length_filter_le ..

theorem inPeriod_eq_nil {since : Nat} (gone : ∀ t ∈ times, t + windowMs ≤ now) (inside : now < since + windowMs) :
    inPeriod since times = [] := by
  apply List.filter_eq_nil_iff.mpr
  intro t member
  have := gone t member
  simp only [decide_eq_true_eq, not_and]
  omega

theorem Counted.later (h : Counted times b now) (le : now ≤ after) : Counted times b after := by
  obtain ⟨before, counted, split, size, left, apart, last⟩ := h.split
  refine ⟨⟨before, counted, split, size, ?_, apart, last⟩, Nat.le_trans h.attempted le, h.within⟩
  intro t member
  have := left t member
  omega

/-- A window ends with its attempts out of the period. -/
theorem Counted.roll (h : Counted times b now) (old : b.expired now → b.count = 0 ∨ b.lastAttempt + windowMs ≤ now) :
    Counted times (roll b now) now := by
  unfold Tickets.roll
  split
  next ended =>
    obtain ⟨before, counted, split, size, left, apart, last⟩ := h.split
    refine ⟨⟨times, [], by simp, Nat.zero_le _, ?_, ?_, ?_⟩, Nat.zero_le _, h.within⟩
    · intro t member
      rw [split] at member
      rcases List.mem_append.mp member with there | there
      · exact left t there
      · rcases old ended with empty | gone
        · have empty : counted = [] := List.eq_nil_of_length_eq_zero (by omega)
          rw [empty] at there
          cases there
        · have := last t there
          omega
    · exact fun _ _ _ there => absurd there List.not_mem_nil
    · exact fun _ there => absurd there List.not_mem_nil
  next => exact h

/-- One more attempt, compared or not, in a window that had room for it. -/
theorem Counted.fail (h : Counted times b now) (compared : List Nat) (one : compared = [] ∨ compared = [now])
    (room : compared = [now] → b.count < globalMaxAttempts) : Counted (times ++ compared) (b.fail now) now := by
  obtain ⟨before, counted, split, size, left, apart, last⟩ := h.split
  have at_now : ∀ t ∈ compared, t = now := by
    intro t member
    rcases one with empty | one
    · rw [empty] at member
      cases member
    · rw [one] at member
      exact List.mem_singleton.mp member
  have short : compared.length ≤ 1 := by
    rcases one with empty | one
    · simp [empty]
    · simp [one]
  refine ⟨⟨before, counted ++ compared, ?_, ?_, left, ?_, ?_⟩, Nat.le_refl _, ?_⟩
  · rw [split, List.append_assoc]
  · rw [List.length_append]
    unfold Bucket.fail
    dsimp only
    omega
  · intro t member u there
    rcases List.mem_append.mp there with old | new
    · exact apart t member u old
    · rw [at_now u new]
      exact left t member
  · intro t member
    unfold Bucket.fail
    dsimp only
    rcases List.mem_append.mp member with old | new
    · exact Nat.le_trans (last t old) h.attempted
    · exact Nat.le_of_eq (at_now t new)
  · intro since
    rw [inPeriod_append, List.length_append]
    by_cases inside : compared = [now] ∧ since ≤ now ∧ now < since + windowMs
    · obtain ⟨here, _, before_end⟩ := inside
      have older : inPeriod since before = [] := inPeriod_eq_nil left before_end
      have many := inPeriod_length_le since counted
      have few := inPeriod_length_le since compared
      have space := room here
      rw [split, inPeriod_append, older, List.nil_append]
      omega
    · have outside : inPeriod since compared = [] := by
        apply List.filter_eq_nil_iff.mpr
        intro t member
        have same := at_now t member
        rcases one with empty | one
        · rw [empty] at member
          cases member
        · simp only [one, true_and] at inside
          simpa [same] using inside
      rw [outside, List.length_nil]
      exact h.within since

theorem checkRateLimit_global (l : Limiter) (ip : String) (now : Nat) :
    (checkRateLimit l ip now).2.globalBucket = roll l.globalBucket now := by
  unfold checkRateLimit
  dsimp only
  split
  next => rfl
  next => rfl

/-- A counted failure starts the window anew where it was empty. -/
theorem recordFailure_counted (l : Limiter) (ip : String) (compared : List Nat) (one : compared = [] ∨ compared = [now])
    (h : Counted times (roll l.globalBucket now) now)
    (room : compared = [now] → (roll l.globalBucket now).count < globalMaxAttempts) :
    Counted (times ++ compared) (recordFailure l ip now).globalBucket now := by
  unfold recordFailure
  dsimp only
  apply Counted.fail _ compared one
  · intro here
    have := room here
    split
    next => exact this
    next => exact this
  · split
    next => exact ⟨h.split, h.attempted, h.within⟩
    next => exact h

/-- The invariant of a run: what was compared is counted, and the clock has not run back. -/
def LoginInv (s : LoginServer) : Prop := Counted s.compared s.limiter.globalBucket s.now

theorem LoginInv.start (secret passcode : String) : LoginInv (.start secret passcode) := by
  refine ⟨⟨[], [], rfl, Nat.le_refl _, ?_, ?_, ?_⟩, Nat.le_refl _, ?_⟩
  · exact fun _ there => absurd there List.not_mem_nil
  · exact fun _ there => absurd there List.not_mem_nil
  · exact fun _ there => absurd there List.not_mem_nil
  · intro since
    exact Nat.zero_le _

theorem LoginInv.step (h : LoginInv s) (guesses : Guesses s event) (old : EndsOldWindow s event)
    (inTime : CountsInTime s event) (step : s.step event = some s') : LoginInv s' := by
  obtain ⟨out, handled, rfl⟩ := Option.map_eq_some_iff.mp step
  have rolled : Counted s.compared (roll s.limiter.globalBucket event.time) event.time :=
    (Counted.later h guesses.1).roll old
  cases event with
  | arrive ip now =>
    have same : out = LoginServer.arrive { s with now := now } ip now := (Option.some.inj handled).symm
    subst same
    unfold LoginServer.arrive
    split
    next => exact Counted.later h guesses.1
    next =>
      dsimp only
      have same := checkRateLimit_global s.limiter ip now
      split
      next =>
        unfold LoginInv
        dsimp only
        rw [same]
        exact rolled
      next =>
        unfold LoginInv
        dsimp only
        rw [same]
        exact rolled
  | body n submitted now =>
    obtain ⟨ip, _, judged⟩ := Option.map_eq_some_iff.mp handled
    have wrong : submitted ≠ s.passcode := guesses.2 submitted rfl
    unfold LoginServer.judge at judged
    rw [if_neg (by simp [wrong])] at judged
    cases judged
    unfold LoginInv
    dsimp only
    split
    next given =>
      exact recordFailure_counted s.limiter ip [now] (Or.inr rfl) rolled fun _ => inTime submitted rfl given
    next =>
      have := recordFailure_counted s.limiter ip [] (Or.inl rfl) rolled (by simp)
      rwa [List.append_nil] at this

/-- The brute-force ceiling holds in every state of a run in which no failure is counted after the ceiling was reached
and no window ends with an attempt of the last period. -/
theorem login_ceiling_kept (secret passcode : String)
    (run : Reaches LoginServer.step (fun s event => Guesses s event ∧ EndsOldWindow s event ∧ CountsInTime s event)
      (.start secret passcode) s) : WithinCeiling s.compared := by
  have inv : LoginInv s := by
    apply run.preserves _ (.start secret passcode)
    intro s event s' h allowed step
    obtain ⟨guesses, old, inTime⟩ := allowed
    exact h.step guesses old inTime step
  exact inv.within

/-- Twenty-one clients are let in before the first of them has sent its passcode. -/
def flood : List LoginEvent :=
  (List.range 21).map (fun n => .arrive (toString n) 1700000000000) ++ List.replicate 21 (.body 0 "guess" 1700000000001)

theorem flood_breaks_ceiling : ∃ s : LoginServer, Reaches LoginServer.step Guesses (.start "secret" "otter") s ∧
    ¬ WithinCeiling s.compared := by
  have many : (runEvents LoginServer.step Guesses (.start "secret" "otter") flood).any (fun s =>
      globalMaxAttempts < (inPeriod 1700000000000 s.compared).length) = true := by decide +kernel
  obtain ⟨s, run, count⟩ := Option.any_eq_true _ _ |>.mp many
  refine ⟨s, Reaches.of_runEvents run, ?_⟩
  intro within
  have := within 1700000000000
  have := of_decide_eq_true count
  omega

/-- A client that guesses wrong, and one that comes while it does. -/
theorem two_guesses_within_ceiling :
    ∃ s : LoginServer, s.compared = [1700000000002, 1700000000003] ∧ WithinCeiling s.compared := by
  let events : List LoginEvent := [.arrive "a" 1700000000000, .arrive "b" 1700000000001,
    .body 0 "guess" 1700000000002, .body 0 "other" 1700000000003]
  have ends : (runEvents LoginServer.step (fun s event => Guesses s event ∧ EndsOldWindow s event ∧
      CountsInTime s event) (.start "secret" "otter") events).any (fun s =>
        s.compared = [1700000000002, 1700000000003]) = true := by decide +kernel
  obtain ⟨s, run, compared⟩ := Option.any_eq_true _ _ |>.mp ends
  exact ⟨s, of_decide_eq_true compared, login_ceiling_kept "secret" "otter" (Reaches.of_runEvents run)⟩

end

end OtterWorks.Tickets
