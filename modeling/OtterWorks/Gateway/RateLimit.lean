import OtterWorks.Lib.TokenBucket
import Mathlib.Data.Rat.Cast.Order
import Mathlib.Algebra.Order.Ring.Rat
import Mathlib.Algebra.Order.Field.Rat

namespace OtterWorks.Gateway

/-- Token counts and seconds as exact numbers. -/
structure TokenBucket where
  tokens : ℚ
  maxTokens : ℚ
  refillRate : ℚ
  lastRefill : ℚ
  deriving DecidableEq, Repr

structure RateLimiter where
  buckets : String → Option TokenBucket
  rps : ℤ

def newRateLimiter (rps : ℤ) : RateLimiter := ⟨fun _ => none, rps⟩

/-- The ten minutes after which a bucket is stale. -/
def staleAfter : ℚ := 10 * 60

/-- A call of `Allow` or a tick of the cleanup, and when. -/
inductive LimiterEvent
  | allow (ip : String) (now : ℚ)
  | tick (now : ℚ)
  deriving DecidableEq, Repr

namespace LimiterEvent

def time : LimiterEvent → ℚ
  | .allow _ now => now
  | .tick now => now

def isCall : LimiterEvent → Bool
  | .allow .. => true
  | .tick _ => false

end LimiterEvent

/-- The answer to a call. -/
structure Decision where
  ip : String
  now : ℚ
  allowed : Bool
  deriving DecidableEq, Repr

namespace RateLimiter

/-- `float64(rl.rps)` -/
def rate (rl : RateLimiter) : ℚ := rl.rps

def allow (rl : RateLimiter) (ip : String) (now : ℚ) : Bool × RateLimiter :=
  let bucket := (rl.buckets ip).getD ⟨rl.rate, rl.rate, rl.rate, now⟩
  let elapsed := now - bucket.lastRefill
  let tokens := bucket.tokens + elapsed * bucket.refillRate
  let tokens := if bucket.maxTokens < tokens then bucket.maxTokens else tokens
  let bucket := { bucket with tokens := tokens, lastRefill := now }
  if 1 ≤ bucket.tokens then
    (true, { rl with buckets := Function.update rl.buckets ip (some { bucket with tokens := bucket.tokens - 1 }) })
  else (false, { rl with buckets := Function.update rl.buckets ip (some bucket) })

def cleanup (rl : RateLimiter) (now : ℚ) : RateLimiter :=
  { rl with buckets := fun ip => (rl.buckets ip).filter fun bucket => ¬staleAfter < now - bucket.lastRefill }

def after (rl : RateLimiter) : LimiterEvent → RateLimiter
  | .allow ip now => (rl.allow ip now).2
  | .tick now => rl.cleanup now

def decisions (rl : RateLimiter) : List LimiterEvent → List Decision
  | [] => []
  | .allow ip now :: events => ⟨ip, now, (rl.allow ip now).1⟩ :: (rl.allow ip now).2.decisions events
  | .tick now :: events => (rl.cleanup now).decisions events

/-- The calls for one address that were admitted in a window of time. -/
def admitted (rl : RateLimiter) (events : List LimiterEvent) (ip : String) (s t : ℚ) : Nat :=
  (rl.decisions events).countP fun d => d.ip = ip ∧ s ≤ d.now ∧ d.now ≤ t ∧ d.allowed

/-- The tokens a call at this time finds. -/
def available (rl : RateLimiter) (ip : String) (now : ℚ) : ℚ :=
  match rl.buckets ip with
  | none => rl.rate
  | some bucket => refilled rl.rate rl.rate bucket.tokens (now - bucket.lastRefill)

/-- Every bucket is of the full rate, refilled in the past, and neither overdrawn nor overfull. -/
structure Sound (rl : RateLimiter) (now : ℚ) : Prop where
  rate_nonneg : 0 ≤ rl.rate
  full_rate : ∀ ip bucket, rl.buckets ip = some bucket → bucket.maxTokens = rl.rate ∧ bucket.refillRate = rl.rate
  refilled_past : ∀ ip bucket, rl.buckets ip = some bucket → bucket.lastRefill ≤ now
  tokens_nonneg : ∀ ip bucket, rl.buckets ip = some bucket → 0 ≤ bucket.tokens
  tokens_le : ∀ ip bucket, rl.buckets ip = some bucket → bucket.tokens ≤ rl.rate

/-- The limiter answers every call the other does. -/
structure Alike (rl rl' : RateLimiter) (now : ℚ) : Prop where
  rate_eq : rl.rate = rl'.rate
  available_eq : ∀ ip later, now ≤ later → rl.available ip later = rl'.available ip later

end RateLimiter

section

variable {rl rl' : RateLimiter} {ip other : String} {now then_ s t : ℚ} {events : List LimiterEvent}

namespace RateLimiter

@[simp] theorem allow_rate : (rl.allow ip now).2.rate = rl.rate := by
  have same : (rl.allow ip now).2.rps = rl.rps := by
    unfold allow
    dsimp only
    rw [apply_ite Prod.snd, apply_ite RateLimiter.rps]
    exact ite_self _
  rw [rate, same, rate]

theorem available_none (held : rl.buckets ip = none) : rl.available ip now = rl.rate := by
  unfold available
  rw [held]

theorem available_some {bucket : TokenBucket} (held : rl.buckets ip = some bucket) :
    rl.available ip now = refilled rl.rate rl.rate bucket.tokens (now - bucket.lastRefill) := by
  unfold available
  rw [held]

/-- A call refills its bucket and takes a token if there is one. -/
theorem allow_spec (sound : rl.Sound now) : (rl.allow ip now).1 = decide (1 ≤ rl.available ip now) ∧
    (rl.allow ip now).2.buckets = Function.update rl.buckets ip
      (some ⟨rl.available ip now - if 1 ≤ rl.available ip now then 1 else 0, rl.rate, rl.rate, now⟩) := by
  have found : ∃ bucket, (rl.buckets ip).getD ⟨rl.rate, rl.rate, rl.rate, now⟩ = bucket ∧ bucket.maxTokens = rl.rate ∧
      bucket.refillRate = rl.rate ∧
      rl.available ip now = refilled rl.rate rl.rate bucket.tokens (now - bucket.lastRefill) := by
    cases held : rl.buckets ip with
    | none =>
      refine ⟨_, rfl, rfl, rfl, ?_⟩
      rw [available_none held, Option.getD_none, sub_self, refilled_zero (le_refl _)]
    | some bucket =>
      obtain ⟨full, rate⟩ := sound.full_rate ip bucket held
      exact ⟨bucket, rfl, full, rate, available_some held⟩
  obtain ⟨bucket, held, full, rate, amount⟩ := found
  have capped : (if bucket.maxTokens < bucket.tokens + (now - bucket.lastRefill) * bucket.refillRate then bucket.maxTokens
      else bucket.tokens + (now - bucket.lastRefill) * bucket.refillRate) = rl.available ip now := by
    rw [amount, full, rate, refilled, min_def]
    split
    next beyond => rw [if_pos (le_of_lt beyond)]
    next within =>
      split
      next le => exact le_antisymm (not_lt.mp within) le
      next => rfl
  unfold allow
  rw [held]
  dsimp only
  rw [capped, full, rate]
  by_cases enough : 1 ≤ rl.available ip now
  · rw [if_pos enough, if_pos enough, decide_eq_true enough]
    exact ⟨rfl, rfl⟩
  · rw [if_neg enough, if_neg enough, decide_eq_false enough, sub_zero]
    exact ⟨rfl, rfl⟩

theorem available_le : rl.available ip now ≤ rl.rate := by
  unfold available
  split
  next => exact le_refl _
  next => exact refilled_le

theorem available_nonneg (sound : rl.Sound now) : 0 ≤ rl.available ip now := by
  unfold available
  split
  next => exact sound.rate_nonneg
  next bucket held =>
    have tokens := sound.tokens_nonneg ip bucket held
    have past := sound.refilled_past ip bucket held
    exact le_trans tokens (le_refilled (sound.tokens_le ip bucket held) sound.rate_nonneg (by linarith))

/-- The tokens found then_ are those found now, refilled. -/
theorem available_later (sound : rl.Sound now) (le : now ≤ then_) :
    rl.available ip then_ = refilled rl.rate rl.rate (rl.available ip now) (then_ - now) := by
  unfold available
  split
  next =>
    have gain : 0 ≤ (then_ - now) * rl.rate := mul_nonneg (by linarith) sound.rate_nonneg
    rw [refilled_full (by linarith)]
  next bucket held =>
    rw [refilled_refilled sound.rate_nonneg (by linarith)]
    ring_nf

theorem Sound.later (sound : rl.Sound now) (le : now ≤ then_) : rl.Sound then_ where
  rate_nonneg := sound.rate_nonneg
  full_rate := sound.full_rate
  refilled_past := fun ip bucket held => le_trans (sound.refilled_past ip bucket held) le
  tokens_nonneg := sound.tokens_nonneg
  tokens_le := sound.tokens_le

theorem Sound.allow (sound : rl.Sound now) : (rl.allow ip now).2.Sound now := by
  have buckets := (@allow_spec rl ip now sound).2
  have nonneg := @available_nonneg rl ip now sound
  have le := @available_le rl ip now
  have each : ∀ other bucket, (rl.allow ip now).2.buckets other = some bucket → rl.buckets other = some bucket ∨
      bucket = ⟨rl.available ip now - if 1 ≤ rl.available ip now then 1 else 0, rl.rate, rl.rate, now⟩ := by
    intro other bucket held
    rw [buckets] at held
    by_cases same : other = ip
    · subst same
      rw [Function.update_self] at held
      exact Or.inr (Option.some.inj held).symm
    · rw [Function.update_of_ne same] at held
      exact Or.inl held
  refine ⟨?_, ?_, ?_, ?_, ?_⟩
  · rw [allow_rate]
    exact sound.rate_nonneg
  · intro other bucket held
    rw [allow_rate]
    rcases each other bucket held with old | rfl
    · exact sound.full_rate other bucket old
    · exact ⟨rfl, rfl⟩
  · intro other bucket held
    rcases each other bucket held with old | rfl
    · exact sound.refilled_past other bucket old
    · exact le_refl _
  · intro other bucket held
    rcases each other bucket held with old | rfl
    · exact sound.tokens_nonneg other bucket old
    · dsimp only
      split
      next enough => linarith
      next => linarith
  · intro other bucket held
    rw [allow_rate]
    rcases each other bucket held with old | rfl
    · exact sound.tokens_le other bucket old
    · dsimp only
      split
      next => linarith
      next => linarith

theorem cleanup_held {bucket : TokenBucket} (held : (rl.cleanup now).buckets ip = some bucket) :
    rl.buckets ip = some bucket := by
  unfold cleanup at held
  exact (Option.filter_eq_some_iff.mp held).1

theorem Sound.cleanup (sound : rl.Sound now) : (rl.cleanup then_).Sound now where
  rate_nonneg := sound.rate_nonneg
  full_rate := fun ip bucket held => sound.full_rate ip bucket (cleanup_held held)
  refilled_past := fun ip bucket held => sound.refilled_past ip bucket (cleanup_held held)
  tokens_nonneg := fun ip bucket held => sound.tokens_nonneg ip bucket (cleanup_held held)
  tokens_le := fun ip bucket held => sound.tokens_le ip bucket (cleanup_held held)

/-- A bucket is stale only after it has filled up again, and no call tells it from a new one. -/
theorem cleanup_available (sound : rl.Sound now) (le : now ≤ then_) :
    (rl.cleanup now).available ip then_ = rl.available ip then_ := by
  cases held : rl.buckets ip with
  | none =>
    have none_ : (rl.cleanup now).buckets ip = none := by
      unfold cleanup
      dsimp only
      rw [held]
      rfl
    rw [available_none none_, available_none held]
    rfl
  | some bucket =>
    rw [available_some held]
    by_cases stale : staleAfter < now - bucket.lastRefill
    · have gone : (rl.cleanup now).buckets ip = none := by
        unfold cleanup
        dsimp only
        rw [held]
        exact Option.filter_some_neg (by simp [stale])
      have tokens := sound.tokens_nonneg ip bucket held
      have long : 1 ≤ then_ - bucket.lastRefill := by
        unfold staleAfter at stale
        linarith
      have gain : 1 * rl.rate ≤ (then_ - bucket.lastRefill) * rl.rate := mul_le_mul_of_nonneg_right long sound.rate_nonneg
      rw [available_none gone, refilled_full (by linarith)]
      rfl
    · have kept : (rl.cleanup now).buckets ip = some bucket := by
        unfold cleanup
        dsimp only
        rw [held]
        exact Option.filter_some_pos (by simp [stale])
      rw [available_some kept]
      rfl

theorem allow_available (sound : rl.Sound now) : (rl.allow ip now).2.available other then_ =
    if other = ip then refilled rl.rate rl.rate (rl.available ip now - if 1 ≤ rl.available ip now then 1 else 0) (then_ - now)
    else rl.available other then_ := by
  unfold available
  rw [allow_rate, (allow_spec sound).2]
  by_cases same : other = ip
  · subst same
    rw [Function.update_self, if_pos rfl]
    rfl
  · rw [Function.update_of_ne same, if_neg same]

theorem Alike.allow (alike : rl.Alike rl' now) (sound : rl.Sound now) (sound' : rl'.Sound now) :
    (rl.allow ip now).1 = (rl'.allow ip now).1 ∧ (rl.allow ip now).2.Alike (rl'.allow ip now).2 now := by
  have here := alike.available_eq ip now (le_refl now)
  refine ⟨?_, ?_, ?_⟩
  · rw [(allow_spec sound).1, (allow_spec sound').1, here]
  · rw [allow_rate, allow_rate]
    exact alike.rate_eq
  · intro other then_ le
    rw [allow_available sound, allow_available sound', here, alike.rate_eq, alike.available_eq other then_ le]

theorem Alike.later (alike : rl.Alike rl' now) (le : now ≤ then_) : rl.Alike rl' then_ :=
  ⟨alike.rate_eq, fun ip u within => alike.available_eq ip u (le_trans le within)⟩

theorem Alike.cleanup (alike : rl.Alike rl' now) (sound : rl.Sound now) : (rl.cleanup now).Alike rl' now :=
  ⟨alike.rate_eq, fun ip u within => (cleanup_available sound within).trans (alike.available_eq ip u within)⟩

/-- A limiter that is never cleaned up answers the same. -/
theorem decisions_calls (ordered : (now :: events.map LimiterEvent.time).Pairwise (· ≤ ·)) (sound : rl.Sound now)
    (sound' : rl'.Sound now) (alike : rl.Alike rl' now) :
    rl.decisions events = rl'.decisions (events.filter LimiterEvent.isCall) := by
  induction events generalizing rl rl' now with
  | nil => rfl
  | cons event events ih =>
    rw [List.map_cons, List.pairwise_cons] at ordered
    obtain ⟨from_, rest⟩ := ordered
    cases event with
    | allow ip time =>
      have le : now ≤ time := from_ _ (by simp [LimiterEvent.time])
      obtain ⟨answer, alike'⟩ := @Alike.allow _ _ ip _ (alike.later le) (sound.later le) (sound'.later le)
      have tail := ih rest (sound.later le).allow (sound'.later le).allow alike'
      rw [List.filter_cons_of_pos rfl, decisions, decisions, answer, tail]
    | tick time =>
      have le : now ≤ time := from_ _ (by simp [LimiterEvent.time])
      have tail := ih rest (sound.later le).cleanup (sound'.later le) ((alike.later le).cleanup (sound.later le))
      rw [List.filter_cons_of_neg (by simp [LimiterEvent.isCall]), decisions]
      exact tail

/-- A rate below one admits nobody. -/
def Short (rl : RateLimiter) : Prop :=
  rl.rate < 1 ∧ ∀ ip bucket, rl.buckets ip = some bucket → bucket.maxTokens = rl.rate

theorem Short.allow (short : rl.Short) : (rl.allow ip now).1 = false ∧ (rl.allow ip now).2.Short := by
  obtain ⟨below, full⟩ := short
  have found : ((rl.buckets ip).getD ⟨rl.rate, rl.rate, rl.rate, now⟩).maxTokens = rl.rate := by
    cases held : rl.buckets ip with
    | none => rfl
    | some bucket => exact full ip bucket held
  unfold RateLimiter.allow
  generalize (rl.buckets ip).getD ⟨rl.rate, rl.rate, rl.rate, now⟩ = bucket at found
  dsimp only
  rw [found]
  have few : ¬1 ≤ (if rl.rate < bucket.tokens + (now - bucket.lastRefill) * bucket.refillRate then rl.rate
      else bucket.tokens + (now - bucket.lastRefill) * bucket.refillRate) := by
    split
    next => linarith
    next within => linarith
  rw [if_neg few]
  refine ⟨rfl, below, ?_⟩
  intro other bucket' held
  dsimp only at held
  by_cases same : other = ip
  · subst same
    rw [Function.update_self] at held
    cases held
    rfl
  · rw [Function.update_of_ne same] at held
    exact full other bucket' held

theorem Short.cleanup (short : rl.Short) : (rl.cleanup now).Short :=
  ⟨short.1, fun ip bucket held => short.2 ip bucket (cleanup_held held)⟩

theorem Short.decisions_calls (short : rl.Short) (short' : rl'.Short) :
    rl.decisions events = rl'.decisions (events.filter LimiterEvent.isCall) := by
  induction events generalizing rl rl' with
  | nil => rfl
  | cons event events ih =>
    cases event with
    | allow ip time =>
      rw [List.filter_cons_of_pos rfl, decisions, decisions, short.allow.1, short'.allow.1, ih short.allow.2 short'.allow.2]
    | tick time =>
      rw [List.filter_cons_of_neg (by simp [LimiterEvent.isCall]), decisions]
      exact ih short.cleanup short'

theorem Short.admitted (short : rl.Short) : rl.admitted events ip s t = 0 := by
  unfold RateLimiter.admitted
  induction events generalizing rl with
  | nil => rfl
  | cons event events ih =>
    cases event with
    | allow ip time =>
      rw [decisions, short.allow.1, List.countP_cons, ih short.allow.2]
      simp
    | tick time => exact ih short.cleanup

/-- The tokens of one address pay for its calls. -/
theorem available_pays (rate : ℚ) (ip : String) : PaysByLevel after LimiterEvent.time
    (fun rl event => ∃ now, event = .allow ip now ∧ (rl.allow ip now).1 = true) (fun rl now => rl.available ip now)
    (fun rl now => rl.Sound now ∧ rl.rate = rate) rate where
  later := fun sound le => ⟨sound.1.later le, sound.2⟩
  after := by
    intro rl event sound
    cases event with
    | allow ip' now => exact ⟨sound.1.allow, allow_rate.trans sound.2⟩
    | tick now => exact ⟨sound.1.cleanup, sound.2⟩
  nonneg := fun sound => available_nonneg sound.1
  raised := by
    intro rl now then_ sound le
    rw [available_later sound.1 le, sound.2]
    exact refilled_le_add
  lowered := by
    intro rl event then_ sound le
    cases event with
    | tick now => exact le_of_eq (cleanup_available sound.1 le)
    | allow ip' now =>
      have sound' : rl.Sound now := sound.1
      change (rl.allow ip' now).2.available ip then_ ≤ rl.available ip then_
      rw [allow_available sound']
      split
      next same =>
        subst same
        rw [available_later sound' le]
        refine refilled_mono ?_
        split
        next => linarith
        next => linarith
      next => exact le_refl _
  paid := by
    intro rl event sound granted
    obtain ⟨now, rfl, granted⟩ := granted
    have sound' : rl.Sound now := sound.1
    rw [(allow_spec sound').1, decide_eq_true_iff] at granted
    have le := @available_le rl ip now
    change (rl.allow ip now).2.available ip now + 1 ≤ rl.available ip now
    rw [allow_available sound', if_pos rfl, if_pos granted, sub_self, refilled_zero (by linarith)]
    linarith

theorem admitted_eq
    [∀ (rl : RateLimiter) event, Decidable (∃ now, event = LimiterEvent.allow ip now ∧ (rl.allow ip now).1 = true)] :
    rl.admitted events ip s t = admittedIn after LimiterEvent.time
      (fun rl event => ∃ now, event = .allow ip now ∧ (rl.allow ip now).1 = true) s t rl events := by
  unfold admitted
  induction events generalizing rl with
  | nil => rfl
  | cons event events ih =>
    cases event with
    | tick time =>
      have none_ : ¬((∃ now, LimiterEvent.tick time = .allow ip now ∧ (rl.allow ip now).1 = true) ∧
          s ≤ (LimiterEvent.tick time).time ∧ (LimiterEvent.tick time).time ≤ t) := by
        rintro ⟨⟨now, tick, _⟩, _⟩
        cases tick
      rw [decisions, admittedIn, if_neg none_, zero_add]
      exact ih
    | allow other time =>
      have counted : ((∃ now, LimiterEvent.allow other time = .allow ip now ∧ (rl.allow ip now).1 = true) ∧
          s ≤ (LimiterEvent.allow other time).time ∧ (LimiterEvent.allow other time).time ≤ t) ↔
          other = ip ∧ s ≤ time ∧ time ≤ t ∧ (rl.allow other time).1 = true := by
        constructor
        · rintro ⟨⟨now, call, granted⟩, from_, until_⟩
          cases call
          exact ⟨rfl, from_, until_, granted⟩
        · rintro ⟨rfl, from_, until_, granted⟩
          exact ⟨⟨time, rfl, granted⟩, from_, until_⟩
      rw [decisions, admittedIn, List.countP_cons, ih, after, Nat.add_comm]
      simp only [counted, decide_eq_true_eq]

end RateLimiter

theorem newRateLimiter_sound {rps : ℤ} (nonneg : 0 ≤ rps) : (newRateLimiter rps).Sound now where
  rate_nonneg := Int.cast_nonneg nonneg
  full_rate := fun _ _ held => nomatch held
  refilled_past := fun _ _ held => nomatch held
  tokens_nonneg := fun _ _ held => nomatch held
  tokens_le := fun _ _ held => nomatch held

theorem exists_start (ordered : (events.map LimiterEvent.time).Pairwise (· ≤ ·)) (s : ℚ) :
    ∃ now ≤ s, (now :: events.map LimiterEvent.time).Pairwise (· ≤ ·) := by
  cases events with
  | nil => exact ⟨s, le_refl s, List.pairwise_singleton _ _⟩
  | cons event events =>
    refine ⟨min event.time s, min_le_right _ _, List.pairwise_cons.mpr ⟨?_, ordered⟩⟩
    rw [List.map_cons, List.pairwise_cons] at ordered
    intro u member
    rcases List.mem_cons.mp member with rfl | later
    · exact min_le_left _ _
    · exact le_trans (min_le_left _ _) (ordered.1 u later)

/-- No window admits more than a full bucket and its refill meanwhile, and the cleanup is not seen from outside. -/
theorem rate_limit_bound (rps : ℤ) (events : List LimiterEvent)
    (ordered : (events.map LimiterEvent.time).Pairwise (· ≤ ·)) :
    (∀ ip s t, s ≤ t → ((newRateLimiter rps).admitted events ip s t : ℚ) ≤ max rps 0 + max rps 0 * (t - s)) ∧
      ∀ others, (others.map LimiterEvent.time).Pairwise (· ≤ ·) →
        others.filter LimiterEvent.isCall = events.filter LimiterEvent.isCall →
          (newRateLimiter rps).decisions others = (newRateLimiter rps).decisions events := by
  by_cases positive : 1 ≤ rps
  · have nonneg : 0 ≤ rps := by omega
    have sound := fun now => @newRateLimiter_sound now rps nonneg
    have alike : ∀ now, (newRateLimiter rps).Alike (newRateLimiter rps) now := fun now => ⟨rfl, fun _ _ _ => rfl⟩
    constructor
    · intro ip s t le
      classical
      obtain ⟨now, before, ordered'⟩ := exists_start ordered s
      have rate_nonneg : (0 : ℚ) ≤ rps := by exact_mod_cast nonneg
      have bound := (RateLimiter.available_pays rps ip).admittedIn_le rate_nonneg ordered' ⟨sound now, rfl⟩
        (max_le (le_trans before le) le)
      rw [max_eq_right before] at bound
      have full : (newRateLimiter rps).available ip s ≤ rps := RateLimiter.available_le
      rw [RateLimiter.admitted_eq, max_eq_left nonneg]
      linarith
    · intro others inOrder same
      obtain ⟨now, _, ordered'⟩ := exists_start ordered 0
      obtain ⟨now', _, inOrder'⟩ := exists_start inOrder 0
      rw [RateLimiter.decisions_calls inOrder' (sound now') (sound now') (alike now'), same,
        ← RateLimiter.decisions_calls ordered' (sound now) (sound now) (alike now)]
  · have short : (newRateLimiter rps).Short := by
      refine ⟨?_, fun _ _ held => nomatch held⟩
      have below : (rps : ℚ) < 1 := by exact_mod_cast not_le.mp positive
      exact below
    constructor
    · intro ip s t le
      have none_ : max rps 0 = 0 := by omega
      rw [short.admitted, none_, Int.cast_zero, zero_mul, add_zero, Nat.cast_zero]
    · intro others inOrder same
      rw [short.decisions_calls short, same, ← short.decisions_calls short]

/-- Three calls in one second at two a second, the bucket swept away eleven minutes later. -/
theorem two_per_second_bound :
    ((newRateLimiter 2).admitted
      [.allow "a" 0, .allow "a" 0, .allow "a" (1 / 2), .tick 660, .allow "a" 661] "a" 0 1 : ℚ) ≤ 4 ∧
    (newRateLimiter 2).decisions [.allow "a" 0, .allow "a" 0, .allow "a" (1 / 2), .allow "a" 661] =
      (newRateLimiter 2).decisions [.allow "a" 0, .allow "a" 0, .allow "a" (1 / 2), .tick 660, .allow "a" 661] := by
  have bounded := rate_limit_bound 2 [.allow "a" 0, .allow "a" 0, .allow "a" (1 / 2), .tick 660, .allow "a" 661]
    (by norm_num [LimiterEvent.time])
  refine ⟨le_trans (bounded.1 "a" 0 1 (by norm_num)) (by norm_num), ?_⟩
  exact bounded.2 _ (by norm_num [LimiterEvent.time]) rfl

/-- A negative rate in the environment refuses every call, and no count is below zero. -/
theorem negative_rate_refuses : ¬∀ (rps : ℤ) (events : List LimiterEvent),
    (events.map LimiterEvent.time).Pairwise (· ≤ ·) → ∀ ip s t, s ≤ t →
      ((newRateLimiter rps).admitted events ip s t : ℚ) ≤ rps + rps * (t - s) := by
  intro h
  have bound := h (-1) [.allow "a" 0] (by simp) "a" 0 0 (le_refl 0)
  have nonneg : (0 : ℚ) ≤ ((newRateLimiter (-1)).admitted [.allow "a" 0] "a" 0 0 : ℚ) := Nat.cast_nonneg _
  push_cast at bound
  linarith

end

end OtterWorks.Gateway
