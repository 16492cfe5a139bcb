import Mathlib.Logic.Function.Iterate
import Mathlib.Data.List.Basic

namespace OtterWorks

/-- What an attempt comes to: a success, or an error that does not tell whether the write was applied. -/
inductive Answer (ε : Type)
  | succeeded
  | failed (e : ε) (applied : Bool)
  deriving DecidableEq, Repr

def Answer.applied {ε : Type} : Answer ε → Bool
  | .succeeded => true
  | .failed _ applied => applied

/-- One attempt: its answer, how long it takes, how much longer than asked for the sleep after it lasts, and whether that
sleep is interrupted. -/
structure Attempt (ε : Type) where
  answer : Answer ε
  took : Nat := 0
  late : Nat := 0
  interrupted : Bool := false
  deriving DecidableEq, Repr

/-- Whether to go on after an error that comes at some time after the start: how long to sleep, and the next state. -/
abbrev RetryPolicy (σ ε : Type) := σ → Nat → ε → Option (Nat × σ)

inductive RetryOutcome (α ε : Type)
  | returned (a : α)
  | threw (e : ε)
  | interrupted (e : ε)
  deriving DecidableEq, Repr

structure Retried (α ε τ : Type) where
  outcome : RetryOutcome α ε
  attempts : Nat
  table : τ
  deriving DecidableEq, Repr

section

variable {σ ε α τ : Type}

/-- The retry loop from attempt `k` on, for as many attempts as the fuel allows. -/
def retry (policy : RetryPolicy σ ε) (write : τ → α × τ) (pattern : Nat → Attempt ε) :
    Nat → Nat → σ → Nat → τ → Option (Retried α ε τ)
  | 0, _, _, _, _ => none
  | fuel + 1, k, s, clock, t =>
    let now := clock + (pattern k).took
    match (pattern k).answer with
    | .succeeded => some ⟨.returned (write t).1, k + 1, (write t).2⟩
    | .failed e applied =>
      let after := if applied then (write t).2 else t
      match policy s now e with
      | none => some ⟨.threw e, k + 1, after⟩
      | some (pause, s') =>
        if (pattern k).interrupted then some ⟨.interrupted e, k + 1, after⟩
        else retry policy write pattern fuel (k + 1) s' (now + pause + (pattern k).late) after

/-- The loop's state and clock before an attempt, if the attempt is made. -/
def stateAt (policy : RetryPolicy σ ε) (pattern : Nat → Attempt ε) (start : σ) : Nat → Option (σ × Nat)
  | 0 => some (start, 0)
  | k + 1 =>
    match stateAt policy pattern start k with
    | none => none
    | some (s, clock) =>
      let now := clock + (pattern k).took
      match (pattern k).answer with
      | .succeeded => none
      | .failed e _ =>
        match policy s now e with
        | none => none
        | some (pause, s') => if (pattern k).interrupted then none else some (s', now + pause + (pattern k).late)

def Makes (policy : RetryPolicy σ ε) (pattern : Nat → Attempt ε) (start : σ) (k : Nat) : Prop :=
  (stateAt policy pattern start k).isSome

/-- How many of the first `n` attempts take effect. -/
def appliedIn (pattern : Nat → Attempt ε) (n : Nat) : Nat := (List.range n).countP fun k => (pattern k).answer.applied

/-- What a write leaves of the table. -/
def tableAfter (write : τ → α × τ) (t : τ) : τ := (write t).2

variable {policy : RetryPolicy σ ε} {write : τ → α × τ} {pattern : Nat → Attempt ε} {start s : σ} {fuel k n clock : Nat}
  {t : τ} {r : Retried α ε τ}

theorem appliedIn_succ (pattern : Nat → Attempt ε) (n : Nat) :
    appliedIn pattern (n + 1) = appliedIn pattern n + if (pattern n).answer.applied then 1 else 0 := by
  simp [appliedIn, List.range_succ, List.countP_append, List.countP_cons]

/-- At most one attempt takes effect exactly if no two do. -/
theorem appliedIn_le_one_iff : appliedIn pattern n ≤ 1 ↔
    ∀ i j, i < j → j < n → ¬((pattern i).answer.applied = true ∧ (pattern j).answer.applied = true) := by
  have none_iff (m : Nat) : appliedIn pattern m = 0 ↔ ∀ i < m, (pattern i).answer.applied = false := by
    simp [appliedIn, List.countP_eq_zero]
  induction n with
  | zero => simp [appliedIn]
  | succ n ih =>
    rw [appliedIn_succ]
    by_cases last : (pattern n).answer.applied = true
    · rw [if_pos last]
      have all := none_iff n
      constructor
      · intro le i j lt bound both
        have none' := all.mp (by omega) i (by omega)
        rw [both.1] at none'
        cases none'
      · intro h
        have none' : appliedIn pattern n = 0 := by
          refine all.mpr ?_
          intro i lt
          by_contra hit
          exact h i n lt (by omega) ⟨by simpa using hit, last⟩
        omega
    · rw [if_neg last, Nat.add_zero]
      refine ih.trans ?_
      constructor
      · intro h i j lt bound both
        by_cases final : j = n
        · exact last (final ▸ both.2)
        · exact h i j lt (by omega) both
      · intro h i j lt bound
        exact h i j lt (by omega)

/-- A loop whose measure drops with every sleep ends. -/
theorem retry_ends (measure : σ → Nat → Nat) (drops : ∀ s now e pause s' earlier later,
    policy s now e = some (pause, s') → earlier ≤ now → now + pause ≤ later → measure s' later < measure s earlier)
    (write : τ → α × τ) (pattern : Nat → Attempt ε) (k : Nat) (t : τ) (enough : measure s clock < fuel) :
    ∃ r, ∀ more, retry policy write pattern (fuel + more) k s clock t = some r := by
  induction fuel generalizing s clock k t with
  | zero => omega
  | succ fuel ih =>
    have turn (more : Nat) : fuel + 1 + more = fuel + more + 1 := by omega
    cases answer : (pattern k).answer with
    | succeeded =>
      refine ⟨⟨.returned (write t).1, k + 1, (write t).2⟩, fun more => ?_⟩
      rw [turn, retry, answer]
    | failed e applied =>
      let after := if applied then (write t).2 else t
      cases decision : policy s (clock + (pattern k).took) e with
      | none =>
        refine ⟨⟨.threw e, k + 1, after⟩, fun more => ?_⟩
        rw [turn, retry, answer]
        dsimp only
        rw [decision]
      | some next =>
        obtain ⟨pause, s'⟩ := next
        have step : ∀ more, retry policy write pattern (fuel + 1 + more) k s clock t =
            if (pattern k).interrupted then some ⟨.interrupted e, k + 1, after⟩
            else retry policy write pattern (fuel + more) (k + 1) s' (clock + (pattern k).took + pause + (pattern k).late)
              after := by
          intro more
          rw [turn, retry, answer]
          dsimp only
          rw [decision]
        by_cases stop : (pattern k).interrupted = true
        · refine ⟨⟨.interrupted e, k + 1, after⟩, fun more => ?_⟩
          rw [step, if_pos stop]
        · have lower : measure s' (clock + (pattern k).took + pause + (pattern k).late) < measure s clock :=
            drops s _ e pause s' clock _ decision (by omega) (by omega)
          have less : measure s' (clock + (pattern k).took + pause + (pattern k).late) < fuel := by omega
          obtain ⟨r, ends⟩ := ih (k + 1) after less
          refine ⟨r, fun more => ?_⟩
          rw [step, if_neg stop, ends more]

/-- No attempt comes after one at which the loop stops. -/
theorem makes_iff_of_stop (made : Makes policy pattern start k) (stops : stateAt policy pattern start (k + 1) = none)
    {j : Nat} (le : k ≤ j) : Makes policy pattern start j ↔ j < k + 1 := by
  have gone : ∀ m, stateAt policy pattern start (k + 1 + m) = none := by
    intro m
    induction m with
    | zero => exact stops
    | succ m ih => rw [← Nat.add_assoc, stateAt, ih]
  constructor
  · intro h
    by_contra past
    obtain ⟨m, rfl⟩ := Nat.exists_eq_add_of_le (show k + 1 ≤ j by omega)
    rw [Makes, gone m] at h
    cases h
  · intro lt
    have same : j = k := by omega
    rw [same]
    exact made

theorem tableAfter_iterate (write : τ → α × τ) {t₀ : τ} (table : t = (tableAfter write)^[n] t₀) :
    (write t).2 = (tableAfter write)^[n + 1] t₀ := by
  rw [Function.iterate_succ_apply', ← table]
  rfl

/-- The table holds what the attempts that took effect wrote, and the loop returns on the answer of its last attempt. -/
theorem retry_from (t₀ : τ) (here : stateAt policy pattern start k = some (s, clock))
    (table : t = (tableAfter write)^[appliedIn pattern k] t₀) (run : retry policy write pattern fuel k s clock t = some r) :
    (∀ j, k ≤ j → (Makes policy pattern start j ↔ j < r.attempts)) ∧
      r.table = (tableAfter write)^[appliedIn pattern r.attempts] t₀ ∧
      (∀ a, r.outcome = .returned a → ∃ before, appliedIn pattern r.attempts = before + 1 ∧
        a = (write ((tableAfter write)^[before] t₀)).1) ∧
      ∃ last, r.attempts = last + 1 ∧ ((∃ a, r.outcome = .returned a) ↔ (pattern last).answer = .succeeded) := by
  induction fuel generalizing k s clock t with
  | zero => cases run
  | succ fuel ih =>
    have made : Makes policy pattern start k := by
      rw [Makes, here]
      rfl
    rw [retry] at run
    dsimp only at run
    cases answer : (pattern k).answer with
    | succeeded =>
      rw [answer] at run
      cases Option.some.inj run
      have count : appliedIn pattern (k + 1) = appliedIn pattern k + 1 := by
        rw [appliedIn_succ, answer]
        rfl
      have stops : stateAt policy pattern start (k + 1) = none := by
        rw [stateAt, here]
        dsimp only
        rw [answer]
      refine ⟨fun j le => makes_iff_of_stop made stops le, ?_, ?_, k, rfl, iff_of_true ⟨_, rfl⟩ answer⟩
      · show (write t).2 = _
        rw [count]
        exact tableAfter_iterate write table
      · intro a returned
        refine ⟨appliedIn pattern k, count, ?_⟩
        rw [← table]
        exact (RetryOutcome.returned.inj returned).symm
    | failed e applied =>
      rw [answer] at run
      dsimp only at run
      have missed : ¬(pattern k).answer = .succeeded := by
        rw [answer]
        intro same
        cases same
      have after : (if applied then (write t).2 else t) = (tableAfter write)^[appliedIn pattern (k + 1)] t₀ := by
        rw [appliedIn_succ, answer]
        cases applied with
        | true => exact tableAfter_iterate write table
        | false => exact table
      cases decision : policy s (clock + (pattern k).took) e with
      | none =>
        rw [decision] at run
        cases Option.some.inj run
        have stops : stateAt policy pattern start (k + 1) = none := by
          rw [stateAt, here]
          dsimp only
          rw [answer]
          dsimp only
          rw [decision]
        refine ⟨fun j le => makes_iff_of_stop made stops le, after, fun a returned => (by cases returned), k, rfl, ?_⟩
        exact iff_of_false (fun h => by obtain ⟨a, returned⟩ := h; cases returned) missed
      | some next =>
        obtain ⟨pause, s'⟩ := next
        rw [decision] at run
        dsimp only at run
        have step : stateAt policy pattern start (k + 1) = if (pattern k).interrupted then none else
            some (s', clock + (pattern k).took + pause + (pattern k).late) := by
          rw [stateAt, here]
          dsimp only
          rw [answer]
          dsimp only
          rw [decision]
        by_cases stop : (pattern k).interrupted = true
        · rw [if_pos stop] at run step
          cases Option.some.inj run
          refine ⟨fun j le => makes_iff_of_stop made step le, after, fun a returned => (by cases returned), k, rfl, ?_⟩
          exact iff_of_false (fun h => by obtain ⟨a, returned⟩ := h; cases returned) missed
        · rw [if_neg stop] at run step
          obtain ⟨makes, rest⟩ := ih step after run
          refine ⟨?_, rest⟩
          intro j le
          by_cases first : j = k
          · rw [first]
            refine iff_of_true made ?_
            have next : Makes policy pattern start (k + 1) := by
              rw [Makes, step]
              rfl
            have bound := (makes (k + 1) (by omega)).mp next
            omega
          · exact makes j (by omega)

/-- An attempt that is followed by another has not succeeded. -/
theorem not_succeeded_of_makes (made : Makes policy pattern start (k + 1)) : ¬(pattern k).answer = .succeeded := by
  intro answer
  rw [Makes, stateAt] at made
  cases here : stateAt policy pattern start k with
  | none => simp [here] at made
  | some state => simp [here, answer] at made

/-- The loop from its first attempt. -/
theorem retry_spec (run : retry policy write pattern fuel 0 start 0 t = some r) :
    (∀ j, Makes policy pattern start j ↔ j < r.attempts) ∧
      r.table = (tableAfter write)^[appliedIn pattern r.attempts] t ∧
      (∀ a, r.outcome = .returned a → ∃ before, appliedIn pattern r.attempts = before + 1 ∧
        a = (write ((tableAfter write)^[before] t)).1) ∧
      ∃ last, r.attempts = last + 1 ∧ ((∃ a, r.outcome = .returned a) ↔ (pattern last).answer = .succeeded) := by
  obtain ⟨makes, rest⟩ := retry_from t rfl rfl run
  exact ⟨fun j => makes j (Nat.zero_le j), rest⟩

/-- The loop returns exactly if an attempt that it makes succeeds. -/
theorem returned_iff (run : retry policy write pattern fuel 0 start 0 t = some r) :
    (∃ a, r.outcome = .returned a) ↔ ∃ k, Makes policy pattern start k ∧ (pattern k).answer = .succeeded := by
  obtain ⟨makes, _, _, last, count, succeeded⟩ := retry_spec run
  rw [succeeded]
  constructor
  · intro answer
    exact ⟨last, (makes last).mpr (by omega), answer⟩
  · intro h
    obtain ⟨k, made, answer⟩ := h
    by_cases final : k = last
    · rw [← final]
      exact answer
    · have bound := (makes k).mp made
      exact absurd answer (not_succeeded_of_makes ((makes (k + 1)).mpr (by omega)))

end

end OtterWorks
