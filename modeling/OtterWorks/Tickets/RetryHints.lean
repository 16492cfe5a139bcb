import Mathlib.Data.List.Induction
import OtterWorks.Tickets.LoginRuns

namespace OtterWorks.Tickets

/-- A call of the limiter, and when. -/
inductive LimiterCall
  | check (ip : String) (now : Nat)
  | failure (ip : String) (now : Nat)
  | success (ip : String) (now : Nat)
  deriving DecidableEq, Repr

def LimiterCall.time : LimiterCall → Nat
  | .check _ now => now
  | .failure _ now => now
  | .success _ now => now

namespace Limiter

def after (l : Limiter) : LimiterCall → Limiter
  | .check ip now => (checkRateLimit l ip now).2
  | .failure ip now => recordFailure l ip now
  | .success ip _ => recordSuccess l ip

def history (calls : List LimiterCall) : Limiter := calls.foldl after .start

/-- Checks alone, by address and time. -/
def checked (l : Limiter) (checks : List (String × Nat)) : Limiter :=
  checks.foldl (fun l c => (checkRateLimit l c.1 c.2).2) l

/-- The bucket that a check of the address works on. -/
def bucket (l : Limiter) (ip : String) (now : Nat) : Bucket := roll ((l.buckets ip).getD ⟨0, now, 0⟩) now

/-- No attempt of an address lies ahead. -/
def Attempted (l : Limiter) (now : Nat) : Prop := ∀ ip b, l.buckets ip = some b → b.lastAttempt ≤ now

end Limiter

/-- Whatever is checked meanwhile, the address is refused until the hint has run out, and allowed then. -/
def HintExact (l : Limiter) (ip : String) (now retryAfterMs : Nat) : Prop :=
  ∀ (checks : List (String × Nat)) (later : Nat), (now :: (checks.map Prod.snd ++ [later])).Pairwise (· ≤ ·) →
    (later = now + retryAfterMs → (checkRateLimit (l.checked checks) ip later).1.allowed = true) ∧
      (later < now + retryAfterMs → (checkRateLimit (l.checked checks) ip later).1.allowed = false)

/-- Neither layer has counted its last attempt, and the backoff does not outlast the window of the address. -/
structure BacksOff (l : Limiter) (ip : String) (now : Nat) : Prop where
  total : (roll l.globalBucket now).count < globalMaxAttempts
  own : (l.bucket ip now).count < maxAttempts
  inWindow : (l.bucket ip now).lastAttempt + baseBackoffMs * 2 ^ ((l.bucket ip now).count - 1) ≤
    (l.bucket ip now).windowStart + windowMs + 1

instance (l : Limiter) (ip : String) (now : Nat) : Decidable (BacksOff l ip now) :=
  decidable_of_iff (_ ∧ _ ∧ _) ⟨fun h => ⟨h.1, h.2.1, h.2.2⟩, fun h => ⟨h.total, h.own, h.inWindow⟩⟩

/-- Buckets that a check does not tell apart. -/
def Bucket.Alike (b b' : Bucket) : Prop := b = b' ∨ b.count = 0 ∧ b'.count = 0

section

variable {l : Limiter} {ip other : String} {b b' : Bucket} {now later : Nat} {calls : List LimiterCall}
  {checks : List (String × Nat)}

theorem Bucket.Alike.count (alike : b.Alike b') : b.count = b'.count := by
  rcases alike with rfl | ⟨zero, zero'⟩
  · rfl
  · rw [zero, zero']

theorem checkBucket_alike (alike : b.Alike b') : checkBucket b now = checkBucket b' now := by
  rcases alike with rfl | ⟨zero, zero'⟩
  · rfl
  · simp [checkBucket, zero, zero', maxAttempts]

/-- A window that has ended has ended later too. -/
theorem roll_roll (le : now ≤ later) : (roll (roll b now) later).Alike (roll b later) := by
  by_cases ended : b.expired now
  · have still : b.expired later := by
      unfold Bucket.expired at ended ⊢
      omega
    have fresh : roll b now = ⟨0, now, 0⟩ := if_pos ended
    have fresh' : roll b later = ⟨0, later, 0⟩ := if_pos still
    rw [fresh, fresh']
    right
    refine ⟨?_, rfl⟩
    unfold roll
    split
    next => rfl
    next => rfl
  · have kept : roll b now = b := if_neg ended
    rw [kept]
    exact Or.inl rfl

theorem checkRateLimit_fst (l : Limiter) (ip : String) (now : Nat) : (checkRateLimit l ip now).1 =
    if globalMaxAttempts ≤ (roll l.globalBucket now).count then
      ⟨false, (roll l.globalBucket now).windowStart + windowMs - now, 0⟩
    else checkBucket (l.bucket ip now) now := by
  unfold checkRateLimit Limiter.bucket
  dsimp only
  split
  next => rfl
  next => rfl

theorem bucket_checked (le : now ≤ later) :
    ((checkRateLimit l other now).2.bucket ip later).Alike (l.bucket ip later) := by
  unfold checkRateLimit
  dsimp only
  split
  next => exact Or.inl rfl
  next =>
    unfold Limiter.bucket
    dsimp only
    by_cases same : ip = other
    · subst same
      rw [Function.update_self, Option.getD_some]
      cases held : l.buckets ip with
      | some b => exact roll_roll le
      | none =>
        have zero : ∀ t u, (roll ⟨0, t, 0⟩ u).count = 0 := by
          intro t u
          unfold roll
          split
          next => rfl
          next => rfl
        rw [Option.getD_none, Option.getD_none]
        refine Or.inr ⟨?_, zero later later⟩
        have first : roll ⟨0, now, 0⟩ now = ⟨0, now, 0⟩ := by
          unfold roll
          split
          next => rfl
          next => rfl
        rw [first]
        exact zero now later
    · rw [Function.update_of_ne same]
      exact Or.inl rfl

/-- A check changes the answer to no later check. -/
theorem check_check (le : now ≤ later) :
    (checkRateLimit (checkRateLimit l other now).2 ip later).1 = (checkRateLimit l ip later).1 := by
  have total := @roll_roll l.globalBucket _ _ le
  rw [checkRateLimit_fst, checkRateLimit_fst, checkRateLimit_global]
  by_cases full : globalMaxAttempts ≤ (roll l.globalBucket later).count
  · have positive : 0 < globalMaxAttempts := by decide
    rcases total with same | ⟨_, zero⟩
    · rw [same]
      rw [if_pos full, if_pos full]
    · omega
  · rw [total.count, if_neg full, if_neg full]
    exact checkBucket_alike (bucket_checked le)

theorem checked_fst (ordered : (checks.map Prod.snd ++ [later]).Pairwise (· ≤ ·)) :
    (checkRateLimit (l.checked checks) ip later).1 = (checkRateLimit l ip later).1 := by
  induction checks generalizing l with
  | nil => rfl
  | cons c checks ih =>
    rw [List.map_cons, List.cons_append, List.pairwise_cons] at ordered
    have rest : (checkRateLimit ((checkRateLimit l c.1 c.2).2.checked checks) ip later).1 =
        (checkRateLimit (checkRateLimit l c.1 c.2).2 ip later).1 := ih ordered.2
    exact rest.trans (check_check (ordered.1 later (by simp)))

/-- The checks between make no difference. -/
theorem hintExact_iff {r : Nat} : HintExact (checkRateLimit l ip now).2 ip now r ↔ ∀ later, now ≤ later →
    (later = now + r → (checkRateLimit l ip later).1.allowed = true) ∧
      (later < now + r → (checkRateLimit l ip later).1.allowed = false) := by
  constructor
  · intro exact_ later le
    have here := exact_ [] later (by simpa using le)
    rw [checked_fst (by simp), check_check le] at here
    exact here
  · intro direct checks later ordered
    rw [List.pairwise_cons] at ordered
    have le := ordered.1 later (by simp)
    rw [checked_fst ordered.2, check_check le]
    exact direct later le

theorem Limiter.Attempted.roll (h : ∀ b', l.buckets ip = some b' → b'.lastAttempt ≤ now) :
    (l.bucket ip now).lastAttempt ≤ now := by
  unfold Limiter.bucket Tickets.roll
  split
  next => exact Nat.zero_le _
  next =>
    cases held : l.buckets ip with
    | none => exact Nat.zero_le _
    | some b' => exact h b' held

theorem Limiter.Attempted.after {call : LimiterCall} (h : l.Attempted call.time) : (l.after call).Attempted call.time := by
  cases call with
  | check ip now =>
    have bucket : (l.bucket ip now).lastAttempt ≤ now := Limiter.Attempted.roll (h ip)
    unfold Limiter.after checkRateLimit
    dsimp only
    split
    next => exact h
    next =>
      intro ip' b' held
      dsimp only at held
      by_cases same : ip' = ip
      · subst same
        rw [Function.update_self] at held
        cases held
        exact bucket
      · rw [Function.update_of_ne same] at held
        exact h ip' b' held
  | failure ip now =>
    intro ip' b' held
    unfold Limiter.after recordFailure at held
    dsimp only at held
    by_cases same : ip' = ip
    · subst same
      rw [Function.update_self] at held
      cases held
      exact Nat.le_refl _
    · rw [Function.update_of_ne same] at held
      exact h ip' b' held
  | success ip now =>
    intro ip' b' held
    unfold Limiter.after recordSuccess at held
    dsimp only at held
    by_cases same : ip' = ip
    · subst same
      rw [Function.update_self] at held
      cases held
    · rw [Function.update_of_ne same] at held
      exact h ip' b' held

theorem history_attempted (ordered : (calls.map LimiterCall.time ++ [now]).Pairwise (· ≤ ·)) :
    (Limiter.history calls).Attempted now := by
  induction calls using List.reverseRecOn generalizing now with
  | nil =>
    intro ip b held
    cases held
  | append_singleton calls call ih =>
    rw [List.map_append, List.pairwise_append] at ordered
    obtain ⟨before, _, apart⟩ := ordered
    have last : call.time ≤ now := apart call.time (by simp) now (by simp)
    have step : (Limiter.history (calls ++ [call])).Attempted call.time := by
      unfold Limiter.history
      rw [List.foldl_append]
      exact (ih before).after
    intro ip b held
    exact Nat.le_trans (step ip b held) last

theorem roll_kept (counted : 0 < (roll b now).count) : roll b now = b ∧ now ≤ b.windowStart + windowMs := by
  by_cases ended : b.expired now
  · have fresh : roll b now = ⟨0, now, 0⟩ := if_pos ended
    rw [fresh] at counted
    exact absurd counted (Nat.lt_irrefl 0)
  · refine ⟨if_neg ended, ?_⟩
    unfold Bucket.expired at ended
    omega

theorem bucket_kept (counted : 0 < (l.bucket ip now).count) : ∃ b, l.buckets ip = some b ∧ l.bucket ip now = b ∧
    now ≤ b.windowStart + windowMs := by
  unfold Limiter.bucket at counted ⊢
  cases held : l.buckets ip with
  | none =>
    rw [held, Option.getD_none] at counted
    obtain ⟨kept, _⟩ := roll_kept counted
    rw [kept] at counted
    exact absurd counted (Nat.lt_irrefl 0)
  | some b =>
    rw [held, Option.getD_some] at counted
    obtain ⟨kept, inside⟩ := roll_kept counted
    exact ⟨b, rfl, kept, inside⟩

theorem roll_count_le : (roll b now).count ≤ b.count := by
  unfold roll
  split
  next => exact Nat.zero_le _
  next => exact Nat.le_refl _

/-- The total never grows by waiting. -/
theorem total_later (le : now ≤ later) : (roll l.globalBucket later).count ≤ (roll l.globalBucket now).count := by
  rw [← (roll_roll le).count]
  exact roll_count_le

/-- At the end of its hint the address is still refused where a window is full: a window ends after its last moment. -/
theorem hint_of_full (full : globalMaxAttempts ≤ (roll l.globalBucket now).count ∨
    (roll l.globalBucket now).count < globalMaxAttempts ∧ maxAttempts ≤ (l.bucket ip now).count) :
    (checkRateLimit l ip (now + (checkRateLimit l ip now).1.retryAfterMs)).1.allowed = false := by
  have positive : 0 < globalMaxAttempts := by decide
  have positive' : 0 < maxAttempts := by decide
  rcases full with total | ⟨total, own⟩
  · obtain ⟨kept, inside⟩ := roll_kept (show 0 < (roll l.globalBucket now).count by omega)
    have hint : (checkRateLimit l ip now).1.retryAfterMs = l.globalBucket.windowStart + windowMs - now := by
      rw [checkRateLimit_fst, if_pos total, kept]
    have still : roll l.globalBucket (l.globalBucket.windowStart + windowMs) = l.globalBucket := by
      apply if_neg
      unfold Bucket.expired
      omega
    have ends : now + (checkRateLimit l ip now).1.retryAfterMs = l.globalBucket.windowStart + windowMs := by omega
    rw [kept] at total
    rw [ends, checkRateLimit_fst, still, if_pos total]
  · obtain ⟨b, held, kept, inside⟩ := bucket_kept (show 0 < (l.bucket ip now).count by omega)
    rw [kept] at own
    have hint : (checkRateLimit l ip now).1.retryAfterMs = b.windowStart + windowMs - now := by
      rw [checkRateLimit_fst, if_neg (by omega), kept, checkBucket]
      simp only [if_pos own]
    have still : l.bucket ip (b.windowStart + windowMs) = b := by
      unfold Limiter.bucket
      rw [held, Option.getD_some]
      apply if_neg
      unfold Bucket.expired
      omega
    have ends : now + (checkRateLimit l ip now).1.retryAfterMs = b.windowStart + windowMs := by omega
    have waited := @total_later l now (b.windowStart + windowMs) inside
    rw [ends, checkRateLimit_fst, if_neg (by omega), still, checkBucket]
    simp only [if_pos own]

/-- While the backoff lasts the address is refused in its window, and allowed past it. -/
theorem backoff_later (le : now ≤ later) (total : (roll l.globalBucket now).count < globalMaxAttempts)
    (held : l.buckets ip = some b) (few : b.count < maxAttempts) (counted : 0 < b.count) :
    (checkRateLimit l ip later).1.allowed = false ↔
      later ≤ b.windowStart + windowMs ∧ later - b.lastAttempt < baseBackoffMs * 2 ^ (b.count - 1) := by
  have waited := @total_later l now later le
  have found : l.bucket ip later = roll b later := by
    unfold Limiter.bucket
    rw [held, Option.getD_some]
  rw [checkRateLimit_fst, if_neg (by omega), found]
  by_cases ended : b.expired later
  · have fresh : roll b later = ⟨0, later, 0⟩ := if_pos ended
    have past : ¬ later ≤ b.windowStart + windowMs := by
      unfold Bucket.expired at ended
      omega
    rw [fresh]
    simp [checkBucket, maxAttempts, past]
  · have kept : roll b later = b := if_neg ended
    have inside : later ≤ b.windowStart + windowMs := by
      unfold Bucket.expired at ended
      omega
    rw [kept, checkBucket]
    simp only [if_neg (Nat.not_le.mpr few), counted, inside, true_and]
    by_cases soon : later - b.lastAttempt < baseBackoffMs * 2 ^ (b.count - 1)
    · simp only [soon, if_true]
    · simp only [soon, if_false, Bool.true_eq_false]

/-- The hint of a refusal is exact if it comes from a backoff that ends within the window of the address. -/
theorem retry_hint_exact_iff (calls : List LimiterCall) (ip : String) (now : Nat)
    (ordered : (calls.map LimiterCall.time ++ [now]).Pairwise (· ≤ ·))
    (refused : (checkRateLimit (.history calls) ip now).1.allowed = false) :
    HintExact (checkRateLimit (.history calls) ip now).2 ip now (checkRateLimit (.history calls) ip now).1.retryAfterMs ↔
      BacksOff (.history calls) ip now := by
  have attempted := history_attempted ordered
  rw [hintExact_iff]
  generalize Limiter.history calls = l at attempted refused
  by_cases full : globalMaxAttempts ≤ (roll l.globalBucket now).count ∨
      (roll l.globalBucket now).count < globalMaxAttempts ∧ maxAttempts ≤ (l.bucket ip now).count
  · constructor
    · intro exact_
      have allowed := (exact_ _ (Nat.le_add_right now _)).1 rfl
      rw [hint_of_full full] at allowed
      cases allowed
    · intro backsOff
      have total := backsOff.total
      have own := backsOff.own
      omega
  · have total : (roll l.globalBucket now).count < globalMaxAttempts := by omega
    have own : (l.bucket ip now).count < maxAttempts := by omega
    have answer : (checkRateLimit l ip now).1 = checkBucket (l.bucket ip now) now := by
      rw [checkRateLimit_fst, if_neg (by omega)]
    have waits : 0 < (l.bucket ip now).count ∧
        now - (l.bucket ip now).lastAttempt < baseBackoffMs * 2 ^ ((l.bucket ip now).count - 1) := by
      by_contra free
      rw [answer, checkBucket] at refused
      simp only [if_neg (Nat.not_le.mpr own), if_neg free] at refused
      cases refused
    obtain ⟨b, held, kept, inside⟩ := bucket_kept waits.1
    have last : b.lastAttempt ≤ now := attempted ip b held
    have hint : (checkRateLimit l ip now).1.retryAfterMs =
        baseBackoffMs * 2 ^ (b.count - 1) - (now - b.lastAttempt) := by
      rw [answer, checkBucket]
      simp only [if_neg (Nat.not_le.mpr own), if_pos waits]
      rw [kept]
    rw [kept] at own waits
    have later_iff := fun later le => @backoff_later l ip b now later le total held own waits.1
    have ends : now + (checkRateLimit l ip now).1.retryAfterMs = b.lastAttempt + baseBackoffMs * 2 ^ (b.count - 1) := by
      omega
    rw [ends]
    constructor
    · intro exact_
      refine ⟨total, by rw [kept]; exact own, ?_⟩
      rw [kept]
      -- the last moment of the hint is in the window
      have refusedLast := (exact_ (b.lastAttempt + baseBackoffMs * 2 ^ (b.count - 1) - 1) (by omega)).2 (by omega)
      have := ((later_iff _ (by omega)).mp refusedLast).1
      omega
    · intro backsOff later le
      have inWindow := backsOff.inWindow
      rw [kept] at inWindow
      constructor
      · intro reached
        rw [← Bool.not_eq_false, later_iff later le]
        omega
      · intro before
        rw [later_iff later le]
        omega

/-- One wrong guess, and the address asks again a tenth of a second later. -/
theorem first_backoff_exact : HintExact (checkRateLimit (.history [.failure "a" 1700000000000]) "a" 1700000000100).2 "a"
    1700000000100 900 := by
  have hint : (checkRateLimit (.history [.failure "a" 1700000000000]) "a" 1700000000100).1 = ⟨false, 900, 4⟩ := by
    decide +kernel
  have exact_ := retry_hint_exact_iff [.failure "a" 1700000000000] "a" 1700000000100 (by decide) (by rw [hint])
  rw [hint] at exact_
  exact exact_.mpr (by decide +kernel)

/-- Five wrong guesses close the window of an address for fifteen minutes and one millisecond more. -/
theorem full_window_hint_short : ¬ ∀ (calls : List LimiterCall) (ip : String) (now : Nat),
    (calls.map LimiterCall.time ++ [now]).Pairwise (· ≤ ·) →
    (checkRateLimit (.history calls) ip now).1.allowed = false →
    HintExact (checkRateLimit (.history calls) ip now).2 ip now
      (checkRateLimit (.history calls) ip now).1.retryAfterMs := by
  intro h
  let calls := List.replicate 5 (LimiterCall.failure "a" 1700000000000)
  have hint : (checkRateLimit (.history calls) "a" 1700000000000).1 = ⟨false, 900000, 0⟩ := by decide +kernel
  have exact_ := h calls "a" 1700000000000 (by decide) (by rw [hint])
  rw [hint, hintExact_iff] at exact_
  have allowed := (exact_ 1700000900000 (by decide)).1 rfl
  have refused : (checkRateLimit (.history calls) "a" 1700000900000).1.allowed = false := by decide +kernel
  rw [refused] at allowed
  cases allowed

end

end OtterWorks.Tickets
